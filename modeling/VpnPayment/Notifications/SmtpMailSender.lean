import VpnPayment.Async.Sequential
import VpnPayment.Collections.Base64
import VpnPayment.Notifications.SmtpConn
import VpnPayment.Qr.Segments

/-! `SmtpMailSender`: a MIME multipart/alternative message, and the commands that hand it
to a mail server. -/
namespace VpnPayment

open Async
open Qr (utf8Bytes)

structure OutgoingEmail where
  to' : String
  subject : String
  text : String
  html : String
deriving DecidableEq

structure SmtpConfig where
  host : String
  port : Nat
  secure : Bool
  user : Option String
  pass : Option String
  /-- Envelope + header From address. -/
  from' : String
deriving DecidableEq

/-- What a message takes from the random source and the clock: the digits of
`Math.random().toString(16).slice(2)` and of `Date.now().toString(16)`, and the date. -/
structure MimeStamp where
  random : List Char
  millis : List Char
  date : List Char
  hex : ∀ c ∈ random ++ millis, c ∈ "0123456789abcdef".toList
  line : '\r' ∉ date ∧ '\n' ∉ date

/-- `lines.join('\r\n')` -/
def joinCrlf (ls : List (List Char)) : List Char :=
  List.intercalate ['\r', '\n'] ls

/-- RFC 2047 encoded-word for non-ASCII header values. -/
def encodeHeaderWord (s : String) : List Char :=
  if s.toList.all fun c => c.toNat ≤ 0x7F then s.toList
  else "=?UTF-8?B?".toList ++ Base64.encode (utf8Bytes s) ++ "?=".toList

/-- Pieces of at most 76 characters, the first of which has begun with `cur`. -/
def piecesFrom (cur : List Char) : List Char → List (List Char)
  | [] => if cur = [] then [] else [cur]
  | c :: rest => if cur.length = 76 then cur :: piecesFrom [c] rest else piecesFrom (cur ++ [c]) rest

/-- `b64.match(/.{1,76}/g) ?? []`. No line ends stand in an encoded text. -/
def pieces76 (b64 : List Char) : List (List Char) :=
  piecesFrom [] b64

def wrap76 (b64 : List Char) : List Char :=
  joinCrlf (pieces76 b64)

def base64Part (contentType : String) (body : String) (boundary : List Char) : List Char :=
  joinCrlf [
    "--".toList ++ boundary,
    "Content-Type: ".toList ++ contentType.toList ++ "; charset=UTF-8".toList,
    "Content-Transfer-Encoding: base64".toList,
    [],
    wrap76 (Base64.encode (utf8Bytes body))]

def MimeStamp.boundary (stamp : MimeStamp) : List Char :=
  "bnd_".toList ++ stamp.random ++ stamp.millis

def mimeHeaders (from' : String) (email : OutgoingEmail) (stamp : MimeStamp) : List (List Char) :=
  ["From: ".toList ++ from'.toList,
    "To: ".toList ++ email.to'.toList,
    "Subject: ".toList ++ encodeHeaderWord email.subject,
    "Date: ".toList ++ stamp.date,
    "MIME-Version: 1.0".toList,
    "Content-Type: multipart/alternative; boundary=\"".toList ++ stamp.boundary ++ "\"".toList]

/-- Build an RFC 5322 multipart/alternative message (text + html). -/
def buildMimeMessage (from' : String) (email : OutgoingEmail) (stamp : MimeStamp) : List Char :=
  joinCrlf (mimeHeaders from' email stamp) ++
    "\r\n\r\n".toList ++
    base64Part "text/plain" email.text stamp.boundary ++
    "\r\n".toList ++
    base64Part "text/html" email.html stamp.boundary ++
    ("\r\n--".toList ++ stamp.boundary ++ "--\r\n".toList)

/-- A line that starts with '.' gets another one. -/
def stuffLine (l : List Char) : List Char :=
  if l.head? = some '.' then '.' :: l else l

def dotStuff (msg : List Char) : List Char :=
  joinCrlf ((Crlf.lines msg).map stuffLine)

/-- Why `send` rejects. -/
inductive SmtpError
  | unexpected (code : Nat) (text : List Char)
  /-- The socket failed, was closed or timed out. -/
  | connection (message : String)
deriving DecidableEq

/-- What `send` awaits or does with its socket, with the sources of time and
randomness. -/
inductive SmtpCall
  | connect (secure : Bool) (host : String) (port : Nat)
  | write (s : List Char)
  | read
  | close
  | stamp

abbrev SmtpAns : SmtpCall → Type
  | .connect .. => Unit
  | .write _ => Unit
  | .read => SmtpResponse
  | .close => Unit
  | .stamp => MimeStamp

/-- An asynchronous method of the sender. It takes no locks. -/
abbrev SmtpAction (α : Type) := Prog Unit SmtpCall SmtpAns SmtpError α

namespace SmtpConn

open Prog (perform)

def expect (code : Nat) : SmtpAction SmtpResponse := do
  let r ← perform SmtpCall.read
  if r.code ≠ code then throw (.unexpected code r.text) else pure r

def cmd (line : List Char) (code : Nat) : SmtpAction SmtpResponse := do
  let _ ← perform (SmtpCall.write (line ++ "\r\n".toList))
  expect code

end SmtpConn

namespace SmtpMailSender

open Prog (perform)
open SmtpConn (expect cmd)

/-- `conn.cmd('AUTH LOGIN', 334)` and what follows it, when both are configured. -/
def login (cfg : SmtpConfig) : SmtpAction Unit :=
  match cfg.user.filter (· ≠ ""), cfg.pass.filter (· ≠ "") with
  | some user, some pass => do
      let _ ← cmd "AUTH LOGIN".toList 334
      let _ ← cmd (Base64.encode (utf8Bytes user)) 334
      let _ ← cmd (Base64.encode (utf8Bytes pass)) 235
      pure ()
  | _, _ => pure ()

/-- The body of the `try` statement. -/
def dialogue (cfg : SmtpConfig) (email : OutgoingEmail) : SmtpAction Unit := do
  let _ ← expect 220
  let _ ← cmd "EHLO localhost".toList 250
  login cfg
  let _ ← cmd ("MAIL FROM:<".toList ++ cfg.from'.toList ++ ">".toList) 250
  let _ ← cmd ("RCPT TO:<".toList ++ email.to'.toList ++ ">".toList) 250
  let _ ← cmd "DATA".toList 354
  let stamp ← perform SmtpCall.stamp
  let message := dotStuff (buildMimeMessage cfg.from' email stamp)
  let _ ← perform (SmtpCall.write (message ++ "\r\n.\r\n".toList))
  let _ ← expect 250
  tryCatch (do let _ ← cmd "QUIT".toList 221; pure ()) fun _ => pure ()

def send (cfg : SmtpConfig) (email : OutgoingEmail) : SmtpAction Unit := do
  let _ ← perform (SmtpCall.connect cfg.secure cfg.host cfg.port)
  -- `finally { conn.end(); }`
  (dialogue cfg email).onReturn fun result =>
    (perform SmtpCall.close).onReturn fun _ => .ret result

end SmtpMailSender

end VpnPayment
