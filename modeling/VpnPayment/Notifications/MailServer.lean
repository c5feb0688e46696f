import VpnPayment.Notifications.SmtpMailSender

/-! The other party of a dialogue: a mail server that takes command lines in order, and
the lines of a mail up to a line that is a dot. -/
namespace VpnPayment

open Async

/-- A mail as a server has taken it. -/
structure Mail where
  sender : List Char
  recipients : List (List Char)
  lines : List (List Char)
deriving DecidableEq

/-- What the server has been told so far. -/
inductive MailPhase
  | fresh
  | greeted
  | user
  | pass
  | mail (sender : List Char)
  | rcpt (sender : List Char) (recipients : List (List Char))
  | data (sender : List Char) (recipients : List (List Char)) (lines : List (List Char))
deriving DecidableEq

/-- The texts of a reply, whatever its code. -/
structure ReplyText where
  /-- The texts of the lines before the last. -/
  more : List (List Char)
  text : List Char
  plain : ∀ t ∈ text :: more, '\r' ∉ t ∧ '\n' ∉ t

/-- The three digits of a code. -/
def codeDigits (code : Nat) : List Char :=
  [Nat.digitChar (code / 100 % 10), Nat.digitChar (code / 10 % 10), Nat.digitChar (code % 10)]

theorem isDigit_digitChar : ∀ d < 10, (Nat.digitChar d).isDigit = true := by
  decide

def SmtpReply.of (code : Nat) (t : ReplyText) : SmtpReply where
  digits := codeDigits code
  more := t.more
  text := t.text
  three := by
    refine ⟨rfl, fun d hd => ?_⟩
    simp only [codeDigits, List.mem_cons, List.not_mem_nil, or_false] at hd
    rcases hd with rfl | rfl | rfl
    all_goals exact isDigit_digitChar _ (Nat.mod_lt _ (by decide))
  plain := t.plain

/-- What the server decides about a command that is in order. -/
inductive Verdict
  | accept (text : ReplyText)
  | refuse (code : Nat) (text : ReplyText) (negative : 400 ≤ code ∧ code < 1000)

structure MailServer where
  /-- The line that is unfinished. -/
  input : List Char
  phase : MailPhase
  mailbox : List Mail
deriving DecidableEq

/-- The address between angle brackets that a command line names. -/
def pathOf (command l : List Char) : Option (List Char) :=
  let a := (l.drop (command.length + 1)).dropLast
  if l = command ++ '<' :: a ++ ['>'] ∧ '<' ∉ a ∧ '>' ∉ a then some a else none

/-- The dot that was put before a line is taken away. -/
def unstuffLine (l : List Char) : List Char :=
  if l.head? = some '.' then l.tail else l

namespace MailPhase

/-- A command that is in order, by its code and the phase it leads to. -/
def command (l : List Char) : MailPhase → Option (Nat × MailPhase)
  | fresh => if "EHLO ".toList.isPrefixOf l then some (250, greeted) else none
  | greeted =>
      if l = "QUIT".toList then some (221, greeted)
      else if l = "AUTH LOGIN".toList then some (334, user)
      else (pathOf "MAIL FROM:".toList l).map fun a => (250, mail a)
  | user => some (334, pass)
  | pass => some (235, greeted)
  | mail sender => (pathOf "RCPT TO:".toList l).map fun a => (250, rcpt sender [a])
  | rcpt sender recipients =>
      if l = "DATA".toList then some (354, data sender recipients [])
      else (pathOf "RCPT TO:".toList l).map fun a => (250, rcpt sender (recipients ++ [a]))
  | data .. => none

end MailPhase

namespace MailServer

def badCommand : SmtpReply :=
  .of 500 ⟨[], "bad command".toList, by decide⟩

/-- Take one line. -/
def line (verdict : Verdict) (s : MailServer) (l : List Char) : MailServer × List SmtpReply :=
  match s.phase with
  | .data sender recipients lines =>
      if l = ['.'] then
        match verdict with
        | .accept text =>
            ({ s with phase := .greeted, mailbox := s.mailbox ++ [⟨sender, recipients, lines⟩] },
              [.of 250 text])
        | .refuse code text _ => ({ s with phase := .greeted }, [.of code text])
      else ({ s with phase := .data sender recipients (lines ++ [unstuffLine l]) }, [])
  | phase =>
      match phase.command l, verdict with
      | none, _ => (s, [badCommand])
      | some (code, next), .accept text => ({ s with phase := next }, [.of code text])
      | some _, .refuse code text _ => (s, [.of code text])

def lines (verdict : Verdict) (s : MailServer) : List (List Char) → MailServer × List SmtpReply
  | [] => (s, [])
  | l :: rest =>
      let (next, replies) := s.line verdict l
      let (last, more) := next.lines verdict rest
      (last, replies ++ more)

/-- Take a text: each line that it finishes. -/
def receive (verdict : Verdict) (s : MailServer) (text : List Char) :
    MailServer × List SmtpReply :=
  let ls := Crlf.linesFrom s.input text
  let (next, replies) := s.lines verdict ls.dropLast
  ({ next with input := Crlf.unfinished ls }, replies)

end MailServer

/-- The server, the client's end of the connection, and what lies between them. -/
structure MailWorld where
  server : MailServer
  /-- What the server has sent and the client has not received. -/
  incoming : List Char
  conn : SmtpConn
  /-- A data event ended inside the final line of a reply, behind its code and space. -/
  torn : Bool
  /-- The connection broke: nothing that is written arrives any more. -/
  cut : Bool
  /-- The client ended the connection. -/
  closed : Bool

namespace MailWorld

/-- Data events of these sizes, up to the one on which the pending read resolves. -/
def hear (w : MailWorld) : List Nat → MailWorld × Option SmtpResponse
  | [] => (w, none)
  | n :: sizes =>
      let arrived := w.conn.buffer ++ w.incoming.take n
      let (conn, response) := w.conn.onData (w.incoming.take n)
      let next := { w with
        conn
        incoming := w.incoming.drop n
        torn := w.torn || isFinalLine (Crlf.unfinished (Crlf.lines arrived)) }
      match response with
      | some r => (next, some r)
      | none => next.hear sizes

/-- A read, which resolves with what is in the buffer or waits for data. -/
def read (w : MailWorld) (sizes : List Nat) : MailWorld × Option SmtpResponse :=
  let (conn, response) := w.conn.read
  match response with
  | some r => ({ w with conn }, some r)
  | none => hear { w with conn } sizes

end MailWorld

/-- What the environment decides about a call. -/
inductive MailReply
  | greeting (r : SmtpReply)
  /-- The first characters of what is written arrive. -/
  | carried (arrives : Nat) (verdict : Verdict)
  /-- What the server has sent arrives in data events of these sizes. -/
  | arrived (sizes : List Nat)
  | failed (sizes : List Nat) (message : String)
  | stamped (stamp : MimeStamp)
  | done

def mailExec : Executor SmtpCall SmtpAns SmtpError MailWorld MailReply
  | .connect .., .greeting r, w => some (.ok (), { w with incoming := w.incoming ++ r.wire })
  | .connect .., .done, w => some (.ok (), { w with cut := true })
  | .write s, .carried arrives verdict, w =>
      if w.cut then some (.ok (), w)
      else
        let (server, replies) := w.server.receive verdict (s.take arrives)
        some (.ok (), { w with
          server := server
          incoming := w.incoming ++ replies.flatMap SmtpReply.wire
          cut := decide (arrives < s.length) })
  | .read, .arrived sizes, w =>
      match w.read sizes with
      | (next, some r) => some (.ok r, next)
      | (_, none) => none
  | .read, .failed sizes message, w =>
      match w.read sizes with
      | (next, none) => some (.error (.connection message), next)
      | (_, some _) => none
  | .close, .done, w => some (.ok (), { w with closed := true })
  | .stamp, .stamped stamp, w => some (.ok stamp, w)
  | _, _, _ => none

/-- No line end stands in the text. -/
def OneLine (l : List Char) : Prop :=
  '\r' ∉ l ∧ '\n' ∉ l

instance (l : List Char) : Decidable (OneLine l) :=
  inferInstanceAs (Decidable (_ ∧ _))

section oneLine

variable {a b l : List Char}

theorem oneLine_append : OneLine (a ++ b) ↔ OneLine a ∧ OneLine b := by
  simp only [OneLine, List.mem_append, not_or]
  tauto

theorem OneLine.whole (h : OneLine l) : Crlf.Whole l :=
  Crlf.whole_of_notMem h.2

theorem oneLine_encode (bytes : List UInt8) : OneLine (Base64.encode bytes) := by
  constructor
  · intro h
    exact Base64.not_isDigit (by decide) (Base64.isDigit_encode h)
  · intro h
    exact Base64.not_isDigit (by decide) (Base64.isDigit_encode h)

end oneLine

section lines

variable {verdict : Verdict} {s : MailServer} {l text : List Char} {ls : List (List Char)}

theorem unstuffLine_stuffLine (l : List Char) : unstuffLine (stuffLine l) = l := by
  unfold unstuffLine stuffLine
  split
  · simp
  · rfl

/-- No line of a stuffed text is a lone dot. -/
theorem stuffLine_ne (l : List Char) : stuffLine l ≠ ['.'] := by
  unfold stuffLine
  split
  · next h =>
      intro hEq
      cases l with
      | nil => cases h
      | cons c rest => simp at hEq
  · next h =>
      intro hEq
      rw [hEq] at h
      exact h rfl

theorem whole_stuffLine (h : Crlf.Whole l) : Crlf.Whole (stuffLine l) := by
  unfold stuffLine
  split
  · exact h.cons (by decide)
  · exact h

/-- The stuffed lines of a mail are collected as they were. -/
theorem MailServer.lines_stuffed {input : List Char} {sender : List Char}
    {recipients taken : List (List Char)} {mailbox : List Mail} (ls : List (List Char)) :
    (MailServer.mk input (.data sender recipients taken) mailbox).lines verdict (ls.map stuffLine) =
      (⟨input, .data sender recipients (taken ++ ls), mailbox⟩, []) := by
  induction ls generalizing taken with
  | nil => simp [MailServer.lines]
  | cons l rest ih =>
      rw [List.map_cons, MailServer.lines]
      simp only [MailServer.line, stuffLine_ne, if_false, unstuffLine_stuffLine, ih, List.append_assoc,
        List.singleton_append, List.nil_append]

theorem MailServer.lines_append (s : MailServer) (ls more : List (List Char)) :
    s.lines verdict (ls ++ more) =
      (((s.lines verdict ls).1.lines verdict more).1,
        (s.lines verdict ls).2 ++ ((s.lines verdict ls).1.lines verdict more).2) := by
  induction ls generalizing s with
  | nil => simp [MailServer.lines]
  | cons l rest ih =>
      rw [List.cons_append, MailServer.lines, MailServer.lines]
      simp only [ih, List.append_assoc]

/-- A line that arrives whole. -/
theorem MailServer.receive_line (hInput : s.input = []) (h : Crlf.Whole l) :
    s.receive verdict (l ++ ['\r', '\n']) =
      ({ (s.line verdict l).1 with input := [] }, (s.line verdict l).2) := by
  have hLines : Crlf.linesFrom [] (l ++ ['\r', '\n']) = [l, []] := Crlf.lines_line h []
  simp [MailServer.receive, hInput, hLines, MailServer.lines, Crlf.unfinished]

/-- Of a line that is cut the server takes nothing. -/
theorem MailServer.receive_cut {n : Nat} (hInput : s.input = []) (h : Crlf.Whole l)
    (hCut : n < (l ++ ['\r', '\n']).length) :
    ((s.receive verdict ((l ++ ['\r', '\n']).take n)).1.mailbox = s.mailbox) ∧
      (s.receive verdict ((l ++ ['\r', '\n']).take n)).2 = [] := by
  have hWhole : Crlf.Whole ((l ++ ['\r', '\n']).take n) := by
    have hPrefix : (l ++ ['\r', '\n']).take n = (l ++ ['\r']).take n := by
      rw [show l ++ ['\r', '\n'] = (l ++ ['\r']) ++ ['\n'] by simp,
        List.take_append_of_le_length (by simp at hCut ⊢; omega)]
    have hEnd : Crlf.Whole (l ++ ['\r']) := by
      show Crlf.lines _ = _
      rw [Crlf.linesFrom_of_whole h, Crlf.linesFrom, if_neg (by simp), Crlf.linesFrom_nil]
    rw [hPrefix]
    rw [← List.take_append_drop n (l ++ ['\r'])] at hEnd
    exact hEnd.left
  have hLines : Crlf.linesFrom [] ((l ++ ['\r', '\n']).take n) = _ := hWhole
  simp [MailServer.receive, hInput, hLines, MailServer.lines]

end lines

section data

variable {verdict : Verdict} {sender : List Char} {recipients : List (List Char)}
  {mailbox : List Mail}

/-- What `send` writes for a message. -/
def dataWire (msg : List Char) : List Char :=
  dotStuff msg ++ "\r\n.\r\n".toList

theorem joinCrlf_append {ls ms : List (List Char)} (hLs : ls ≠ []) (hMs : ms ≠ []) :
    joinCrlf (ls ++ ms) = joinCrlf ls ++ "\r\n".toList ++ joinCrlf ms := by
  induction ls with
  | nil => exact absurd rfl hLs
  | cons l rest ih =>
      cases rest with
      | nil =>
          obtain ⟨m, more, rfl⟩ := List.exists_cons_of_ne_nil hMs
          simp [joinCrlf, List.intercalate_cons_cons]
      | cons next more =>
          have hRest := ih (List.cons_ne_nil _ _)
          unfold joinCrlf at hRest ⊢
          rw [List.cons_append, List.cons_append, List.intercalate_cons_cons,
            List.intercalate_cons_cons, ← List.cons_append, hRest]
          simp

theorem lines_dataWire (msg : List Char) :
    Crlf.lines (dataWire msg) = (Crlf.lines msg).map stuffLine ++ [['.'], []] := by
  have hSome : (Crlf.lines msg).map stuffLine ≠ [] := by
    rw [ne_eq, List.map_eq_nil_iff]
    exact Crlf.linesFrom_ne_nil [] msg
  have hWire : dataWire msg = joinCrlf ((Crlf.lines msg).map stuffLine ++ [['.'], []]) := by
    rw [joinCrlf_append hSome (List.cons_ne_nil _ _)]
    simp [dataWire, dotStuff, joinCrlf]
  rw [hWire]
  apply Crlf.lines_intercalate (by simp)
  intro l hl
  rcases List.mem_append.mp hl with hl | hl
  · obtain ⟨l', hl', rfl⟩ := List.mem_map.mp hl
    exact whole_stuffLine (Crlf.whole_of_mem hl')
  · apply Crlf.whole_of_notMem
    have hEnd : ∀ l ∈ [['.'], []], '\n' ∉ l := by decide
    exact hEnd l hl

/-- The whole of a message: the server has its lines when it decides about the mail. -/
theorem MailServer.receive_data (msg : List Char) :
    (MailServer.mk [] (.data sender recipients []) mailbox).receive verdict (dataWire msg) =
      (MailServer.mk [] (.data sender recipients (Crlf.lines msg)) mailbox).line verdict ['.'] := by
  have hLines : Crlf.linesFrom [] (dataWire msg) = _ := lines_dataWire msg
  have hLast : ((Crlf.lines msg).map stuffLine ++ [['.'], []]).dropLast =
      (Crlf.lines msg).map stuffLine ++ [['.']] := by
    rw [show [['.'], []] = [['.']] ++ [([] : List Char)] from rfl, ← List.append_assoc,
      List.dropLast_concat]
  rw [MailServer.receive, hLines, hLast, MailServer.lines_append, MailServer.lines_stuffed]
  cases verdict <;> simp [MailServer.lines, MailServer.line, Crlf.unfinished]

/-- Of a message that is cut the server makes no mail. -/
theorem MailServer.receive_data_cut {msg : List Char} {n : Nat} (hCut : n < (dataWire msg).length) :
    let out := (MailServer.mk [] (.data sender recipients []) mailbox).receive verdict
      ((dataWire msg).take n)
    out.1.mailbox = mailbox ∧ out.2 = [] := by
  have hAll : Crlf.lines ((dataWire msg).take n ++ (dataWire msg).drop n) =
      ((Crlf.lines msg).map stuffLine ++ [['.']]) ++ [[]] := by
    rw [List.take_append_drop, lines_dataWire, List.append_assoc]
    rfl
  have hMore : (dataWire msg).drop n ≠ [] := by
    intro hNil
    rw [List.drop_eq_nil_iff] at hNil
    omega
  obtain ⟨rest, hRest⟩ := Crlf.finished_of_cut hAll hMore
  rw [List.dropLast_concat] at hRest
  have hTake : (Crlf.lines ((dataWire msg).take n)).dropLast =
      ((Crlf.lines msg).take (Crlf.lines ((dataWire msg).take n)).dropLast.length).map stuffLine := by
    rw [List.map_take, ← hRest, List.take_left']
    rfl
  have hLines : Crlf.linesFrom [] ((dataWire msg).take n) = Crlf.lines ((dataWire msg).take n) := rfl
  rw [MailServer.receive, hLines, hTake, MailServer.lines_stuffed]
  exact ⟨rfl, rfl⟩

end data

end VpnPayment
