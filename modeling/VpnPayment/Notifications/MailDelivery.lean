import VpnPayment.Notifications.MailReplies
import VpnPayment.Notifications.MimeMessage

/-! A mail is delivered whole or not at all, whatever the server answers and wherever the
connection breaks, as long as no data event ends inside the final line of a reply. -/
namespace VpnPayment

open Async Prog
open SmtpConn (expect cmd)

/-- The server has taken everything that was written, and every reply was read. -/
structure MailWorld.Ready (phase : MailPhase) (mailbox : List Mail) (w : MailWorld) : Prop where
  server : w.server = ⟨[], phase, mailbox⟩
  incoming : w.incoming = []
  conn : w.conn = .opened
  cut : w.cut = false

/-- After success `next` holds, and after a failure the mailbox is one of `mailboxes`, unless a
data event ended inside a final line. -/
def AfterCmd {α : Type} (next : MailWorld → Prop) (mailboxes : List Mail → Prop) :
    Except SmtpError α → MailWorld → Prop
  | .ok _, w => w.torn = true ∨ next w
  | .error _, w => w.torn = true ∨ mailboxes w.server.mailbox

section commands

variable {w : MailWorld} {phase target : MailPhase} {mailbox : List Mail} {l : List Char}
  {code : Nat} {next next' : MailWorld → Prop} {mailboxes mailboxes' : List Mail → Prop} {α β : Type}

theorem torn_kept (c : SmtpCall) (reply : MailReply) (answer : Except SmtpError (SmtpAns c))
    (w w' : MailWorld) (hTorn : w.torn = true) (h : mailExec c reply w = some (answer, w')) :
    w'.torn = true := by
  have hRead (sizes : List Nat) : (w.read sizes).1.torn = true := (w.read_heard sizes).torn hTorn
  cases c with
  | connect secure host port =>
      cases reply with
      | greeting r =>
          cases h
          exact hTorn
      | done =>
          cases h
          exact hTorn
      | _ => cases h
  | write s =>
      cases reply with
      | carried arrives verdict =>
          simp only [mailExec] at h
          split at h
          · cases h
            exact hTorn
          · cases h
            exact hTorn
      | _ => cases h
  | read =>
      cases reply with
      | arrived sizes =>
          have hKept := hRead sizes
          simp only [mailExec] at h
          split at h
          · next hHeard =>
              cases h
              rwa [hHeard] at hKept
          · cases h
      | failed sizes message =>
          have hKept := hRead sizes
          simp only [mailExec] at h
          split at h
          · next hHeard =>
              cases h
              rwa [hHeard] at hKept
          · cases h
      | _ => cases h
  | close =>
      cases reply with
      | done =>
          cases h
          exact hTorn
      | _ => cases h
  | stamp =>
      cases reply with
      | stamped stamp =>
          cases h
          exact hTorn
      | _ => cases h

/-- One command after the other. Once a final line was torn nothing more is claimed. -/
theorem ends_next {p : SmtpAction α} {f : α → SmtpAction β}
    (h : p.Ends mailExec (AfterCmd next mailboxes) w)
    (hOk : ∀ a w₁, next w₁ → (f a).Ends mailExec (AfterCmd next' mailboxes') w₁)
    (hError : ∀ after, mailboxes after → mailboxes' after) :
    (p >>= f).Ends mailExec (AfterCmd next' mailboxes') w := by
  apply ends_bind h
  · intro a w₁ hAfter
    rcases hAfter with hTorn | hNext
    · apply ends_mono _ (ends_of_kept torn_kept (f a) hTorn)
      intro result w₂ hTorn
      cases result with
      | ok _ => exact .inl hTorn
      | error e => exact .inl hTorn
    · exact hOk a w₁ hNext
  · intro e w₁ hAfter
    exact hAfter.imp id (hError _)

/-- The read of the server's one reply to a command, if it has sent one. -/
theorem ends_expect {replies : List SmtpReply} (hConn : w.conn = .opened)
    (hIncoming : w.incoming = replies.flatMap SmtpReply.wire) (hOne : replies.length ≤ 1)
    (hNext : ∀ r ∈ replies, r.code = code → next { w with incoming := [], torn := false })
    (hLost : mailboxes w.server.mailbox) :
    (expect code).Ends mailExec (AfterCmd next mailboxes) w := by
  refine ⟨trivial, fun reply answer s₁ hExec => ⟨trivial, ?_⟩⟩
  cases reply with
  | arrived sizes =>
      have hHeard := w.read_heard sizes
      simp only [mailExec] at hExec
      split at hExec
      · next after response hRead =>
          obtain ⟨rfl, rfl⟩ := Prod.mk.inj (Option.some.inj hExec)
          rw [hRead] at hHeard
          by_cases hCode : response.code = code
          · have hAfter : AfterCmd next mailboxes (.ok response) after := by
              cases hTorn : after.torn with
              | true => exact .inl hTorn
              | false =>
                  obtain ⟨r, hMem, hSame, rfl⟩ := MailWorld.read_replies hConn hIncoming hOne hRead hTorn
                  exact .inr (hNext r hMem (hSame.symm.trans hCode))
            simpa [afterOk, hCode, onReturn, pure_eq, Always] using hAfter
          · have hAfter : AfterCmd next mailboxes (.error (.unexpected code response.text) :
                Except SmtpError SmtpResponse) after := by
              exact .inr (by rw [hHeard.server]; exact hLost)
            simpa [afterOk, hCode, onReturn, throw_eq, Always] using hAfter
      · cases hExec
  | failed sizes message =>
      have hHeard := w.read_heard sizes
      simp only [mailExec] at hExec
      split at hExec
      · next after hRead =>
          cases hExec
          rw [hRead] at hHeard
          exact .inr (by rw [hHeard.server]; exact hLost)
      · cases hExec
  | greeting r => cases hExec
  | carried arrives verdict => cases hExec
  | stamped stamp => cases hExec
  | done => cases hExec

/-- Outside of a mail a line is a command. -/
theorem MailServer.line_command {verdict : Verdict} {input : List Char}
    (hPhase : ∀ a b c, phase ≠ .data a b c) :
    MailServer.line verdict ⟨input, phase, mailbox⟩ l =
      match phase.command l, verdict with
      | none, _ => (⟨input, phase, mailbox⟩, [badCommand])
      | some (code, next), .accept text => (⟨input, next, mailbox⟩, [.of code text])
      | some _, .refuse code text _ => (⟨input, phase, mailbox⟩, [.of code text]) := by
  cases phase with
  | data a b c => exact absurd rfl (hPhase a b c)
  | fresh => rfl
  | greeted => rfl
  | user => rfl
  | pass => rfl
  | mail a => rfl
  | rcpt a b => rfl

/-- What is written arrives whole, or the connection is cut. -/
theorem write_cases {s : List Char} {reply : MailReply} {answer : Except SmtpError Unit}
    {s₁ : MailWorld} (hReady : w.Ready phase mailbox)
    (h : mailExec (.write s) reply w = some (answer, s₁)) :
    answer = .ok () ∧ ∃ verdict n,
      s₁.server = ((⟨[], phase, mailbox⟩ : MailServer).receive verdict (s.take n)).1 ∧
      s₁.incoming = ((⟨[], phase, mailbox⟩ : MailServer).receive verdict (s.take n)).2.flatMap
        SmtpReply.wire ∧
      s₁.conn = .opened ∧ s₁.cut = decide (n < s.length) := by
  cases reply with
  | carried arrives verdict =>
      simp only [mailExec, hReady.cut, hReady.server, hReady.incoming, Bool.false_eq_true, if_false,
        List.nil_append, Option.some.injEq, Prod.mk.injEq] at h
      obtain ⟨rfl, rfl⟩ := h
      exact ⟨rfl, verdict, arrives, rfl, rfl, hReady.conn, rfl⟩
  | greeting r => cases h
  | arrived => cases h
  | failed => cases h
  | stamped stamp => cases h
  | done => cases h

/-- A command that can only lead to `target`. -/
theorem ends_cmd (hReady : w.Ready phase mailbox) (hLine : OneLine l) (hCode : code < 400)
    (hPhase : ∀ a b c, phase ≠ .data a b c)
    (hCommand : ∀ c n, phase.command l = some (c, n) → c = code ∧ n = target) :
    (cmd l code).Ends mailExec (AfterCmd (·.Ready target mailbox) (· = mailbox)) w := by
  refine ⟨trivial, fun reply answer s₁ hExec => ⟨trivial, ?_⟩⟩
  obtain ⟨rfl, verdict, n, hServer, hIncoming, hConn, hCut⟩ := write_cases hReady hExec
  by_cases hShort : n < (l ++ "\r\n".toList).length
  · obtain ⟨hMailbox, hNone⟩ := @MailServer.receive_cut verdict ⟨[], phase, mailbox⟩ l n rfl
      hLine.whole hShort
    rw [show "\r\n".toList = ['\r', '\n'] from rfl] at hServer hIncoming
    rw [hNone] at hIncoming
    apply ends_expect hConn hIncoming (by simp)
    · nofun
    · rw [hServer]
      exact hMailbox
  · have hAll : (l ++ "\r\n".toList).take n = l ++ ['\r', '\n'] :=
      List.take_of_length_le (Nat.le_of_not_lt hShort)
    rw [hAll, MailServer.receive_line rfl hLine.whole, MailServer.line_command hPhase]
      at hServer hIncoming
    rw [decide_eq_false hShort] at hCut
    apply ends_expect hConn hIncoming
    · cases phase.command l with
      | none => exact le_rfl
      | some found =>
          cases verdict with
          | accept text => exact le_rfl
          | refuse code' text hNegative => exact le_rfl
    · intro r hMem hEq
      cases hFound : phase.command l with
      | none =>
          rw [hFound] at hMem
          obtain rfl := List.mem_singleton.mp hMem
          have h500 : 500 = code := (SmtpReply.code_of (by decide) _).symm.trans hEq
          omega
      | some found =>
          obtain ⟨rfl, rfl⟩ := hCommand found.1 found.2 hFound
          rw [hFound] at hMem hServer
          cases verdict with
          | accept text => exact ⟨hServer, rfl, hConn, hCut⟩
          | refuse code' text hNegative =>
              obtain rfl := List.mem_singleton.mp hMem
              have hSame : code' = found.1 := (SmtpReply.code_of hNegative.2 text).symm.trans hEq
              omega
    · rw [hServer]
      cases phase.command l with
      | none => rfl
      | some found =>
          cases verdict with
          | accept text => rfl
          | refuse code' text hNegative => rfl

theorem pathOf_eq {command a b : List Char} (h : pathOf command (command ++ '<' :: a ++ ['>']) = some b) :
    b = a := by
  unfold pathOf at h
  have hInner : ((command ++ '<' :: a ++ ['>']).drop (command.length + 1)).dropLast = a := by
    rw [List.append_assoc, ← List.drop_drop, List.drop_left, List.cons_append, List.drop_one,
      List.tail_cons, List.dropLast_concat]
  rw [hInner] at h
  dsimp only at h
  split at h
  · exact (Option.some.inj h).symm
  · cases h

theorem command_mail {a : List Char} {c : Nat} {n : MailPhase}
    (h : MailPhase.greeted.command ("MAIL FROM:<".toList ++ a ++ ">".toList) = some (c, n)) :
    c = 250 ∧ n = .mail a := by
  have hQuit : "MAIL FROM:<".toList ++ a ++ ">".toList ≠ "QUIT".toList := by
    intro hEq
    have hHead : some 'M' = some 'Q' := congrArg List.head? hEq
    cases hHead
  have hAuth : "MAIL FROM:<".toList ++ a ++ ">".toList ≠ "AUTH LOGIN".toList := by
    intro hEq
    have hHead : some 'M' = some 'A' := congrArg List.head? hEq
    cases hHead
  rw [MailPhase.command, if_neg hQuit, if_neg hAuth, Option.map_eq_some_iff] at h
  obtain ⟨b, hPath, hEq⟩ := h
  obtain rfl : b = a := @pathOf_eq "MAIL FROM:".toList a b hPath
  cases hEq
  exact ⟨rfl, rfl⟩

theorem command_rcpt {sender a : List Char} {c : Nat} {n : MailPhase}
    (h : (MailPhase.mail sender).command ("RCPT TO:<".toList ++ a ++ ">".toList) = some (c, n)) :
    c = 250 ∧ n = .rcpt sender [a] := by
  rw [MailPhase.command, Option.map_eq_some_iff] at h
  obtain ⟨b, hPath, hEq⟩ := h
  obtain rfl : b = a := @pathOf_eq "RCPT TO:".toList a b hPath
  cases hEq
  exact ⟨rfl, rfl⟩

end commands

section dialogue

variable {w : MailWorld} {mailbox : List Mail} {cfg : SmtpConfig} {email : OutgoingEmail}

theorem ends_login (hReady : w.Ready .greeted mailbox) :
    (SmtpMailSender.login cfg).Ends mailExec (AfterCmd (·.Ready .greeted mailbox) (· = mailbox)) w := by
  unfold SmtpMailSender.login
  split
  · next user pass hUser hPass =>
      have hFirst := @ends_cmd w .greeted .user mailbox "AUTH LOGIN".toList 334 hReady (by decide)
        (by decide) (by intros; intro h; cases h) (by
          intro c n h
          have hEq : some (334, MailPhase.user) = some (c, n) := h
          cases hEq
          exact ⟨rfl, rfl⟩)
      refine ends_next hFirst (fun _ w₁ hReady₁ => ?_) fun _ h => h
      have hSecond := @ends_cmd w₁ .user .pass mailbox _ 334 hReady₁
        (oneLine_encode (Qr.utf8Bytes user)) (by decide) (by intros; intro h; cases h) (by
          intro c n h
          cases h
          exact ⟨rfl, rfl⟩)
      refine ends_next hSecond (fun _ w₂ hReady₂ => ?_) fun _ h => h
      have hThird := @ends_cmd w₂ .pass .greeted mailbox _ 235 hReady₂
        (oneLine_encode (Qr.utf8Bytes pass)) (by decide) (by intros; intro h; cases h) (by
          intro c n h
          cases h
          exact ⟨rfl, rfl⟩)
      exact ends_next hThird (fun _ w₃ hReady₃ => .inr hReady₃) fun _ h => h
  · exact .inr hReady

/-- The mail that a message makes. -/
def mailOf (cfg : SmtpConfig) (email : OutgoingEmail) (stamp : MimeStamp) : Mail :=
  ⟨cfg.from'.toList, [email.to'.toList], Crlf.lines (buildMimeMessage cfg.from' email stamp)⟩

/-- The message, the server's answer to it, and the end of the session. -/
theorem ends_message {stamp : MimeStamp}
    (hReady : w.Ready (.data cfg.from'.toList [email.to'.toList] []) mailbox) :
    (do
      let _ ← perform (SmtpCall.write (dataWire (buildMimeMessage cfg.from' email stamp)))
      let _ ← expect 250
      tryCatch (do let _ ← cmd "QUIT".toList 221; pure ()) fun _ => pure () :
        SmtpAction Unit).Ends mailExec
      (AfterCmd (·.server.mailbox = mailbox ++ [mailOf cfg email stamp])
        fun after => after = mailbox ∨ after = mailbox ++ [mailOf cfg email stamp]) w := by
  refine ⟨trivial, fun reply answer w₁ hExec => ⟨trivial, ?_⟩⟩
  obtain ⟨rfl, verdict, n, hServer, hIncoming, hConn, hCut⟩ := write_cases hReady hExec
  have hExpect : (expect 250).Ends mailExec
      (AfterCmd (·.Ready .greeted (mailbox ++ [mailOf cfg email stamp]))
        fun after => after = mailbox ∨ after = mailbox ++ [mailOf cfg email stamp]) w₁ := by
    by_cases hShort : n < (dataWire (buildMimeMessage cfg.from' email stamp)).length
    · obtain ⟨hMailbox, hNone⟩ := @MailServer.receive_data_cut verdict cfg.from'.toList
        [email.to'.toList] mailbox _ _ hShort
      rw [hNone] at hIncoming
      apply ends_expect hConn hIncoming (by simp)
      · nofun
      · rw [hServer]
        exact .inl hMailbox
    · rw [List.take_of_length_le (Nat.le_of_not_lt hShort), MailServer.receive_data]
        at hServer hIncoming
      rw [decide_eq_false hShort] at hCut
      apply ends_expect hConn hIncoming
      · cases verdict with
        | accept text => exact le_rfl
        | refuse code text hNegative => exact le_rfl
      · intro r hMem hEq
        cases verdict with
        | accept text => exact ⟨hServer, rfl, hConn, hCut⟩
        | refuse code text hNegative =>
            obtain rfl := List.mem_singleton.mp hMem
            have hSame : code = 250 := (SmtpReply.code_of hNegative.2 text).symm.trans hEq
            omega
      · rw [hServer]
        cases verdict with
        | accept text => exact .inr rfl
        | refuse code text hNegative => exact .inl rfl
  apply ends_next hExpect _ fun _ h => h
  intro _ w₂ hReady₂
  have hQuit := @ends_cmd w₂ .greeted .greeted (mailbox ++ [mailOf cfg email stamp])
    "QUIT".toList 221 hReady₂ (by decide) (by decide) (by intros; intro h; cases h) (by
      intro c n h
      have hEq : some (221, MailPhase.greeted) = some (c, n) := h
      cases hEq
      exact ⟨rfl, rfl⟩)
  apply ends_tryCatch (R := AfterCmd (·.server.mailbox = mailbox ++ [mailOf cfg email stamp])
    (· = mailbox ++ [mailOf cfg email stamp]))
  · refine ends_next hQuit (fun _ w₃ hReady₃ => .inr ?_) fun _ h => h
    show w₃.server.mailbox = _
    rw [hReady₃.server]
  · exact fun _ w₃ h => h
  · exact fun e w₃ h => h

theorem ends_dialogue {replies : List SmtpReply} (hFrom : OneLine cfg.from'.toList)
    (hTo : OneLine email.to'.toList) (hServer : w.server = ⟨[], .fresh, mailbox⟩)
    (hConn : w.conn = .opened) (hIncoming : w.incoming = replies.flatMap SmtpReply.wire)
    (hOne : replies.length ≤ 1) (hCut : replies ≠ [] → w.cut = false) :
    (SmtpMailSender.dialogue cfg email).Ends mailExec
      (AfterCmd (fun after => ∃ stamp, after.server.mailbox = mailbox ++ [mailOf cfg email stamp])
        fun after => after = mailbox ∨ ∃ stamp, after = mailbox ++ [mailOf cfg email stamp]) w := by
  have hGreeting : (expect 220).Ends mailExec (AfterCmd (·.Ready .fresh mailbox) (· = mailbox)) w := by
    apply ends_expect hConn hIncoming hOne
    · exact fun r hMem _ => ⟨hServer, rfl, hConn, hCut (List.ne_nil_of_mem hMem)⟩
    · rw [hServer]
  have hNotData : ∀ phase : MailPhase, phase ∈ [.fresh, .greeted, .mail cfg.from'.toList,
      .rcpt cfg.from'.toList [email.to'.toList]] → ∀ a b c, phase ≠ .data a b c := by
    intro phase hMem a b c hEq
    rw [hEq] at hMem
    simp at hMem
  refine ends_next hGreeting (fun _ w₁ hReady => ?_) fun _ h => .inl h
  have hEhlo := @ends_cmd w₁ .fresh .greeted mailbox "EHLO localhost".toList 250 hReady (by decide)
    (by decide) (hNotData _ (by simp)) (by
      intro c n h
      have hEq : some (250, MailPhase.greeted) = some (c, n) := h
      cases hEq
      exact ⟨rfl, rfl⟩)
  refine ends_next hEhlo (fun _ w₂ hReady => ?_) fun _ h => .inl h
  refine ends_next (ends_login hReady) (fun _ w₃ hReady => ?_) fun _ h => .inl h
  have hMail := @ends_cmd w₃ .greeted (.mail cfg.from'.toList) mailbox _ 250 hReady
    (oneLine_append.mpr ⟨oneLine_append.mpr ⟨by decide, hFrom⟩, by decide⟩) (by decide)
    (hNotData _ (by simp)) fun c n => command_mail
  refine ends_next hMail (fun _ w₄ hReady => ?_) fun _ h => .inl h
  have hRcpt := @ends_cmd w₄ (.mail cfg.from'.toList) (.rcpt cfg.from'.toList [email.to'.toList])
    mailbox _ 250 hReady (oneLine_append.mpr ⟨oneLine_append.mpr ⟨by decide, hTo⟩, by decide⟩)
    (by decide) (hNotData _ (by simp)) fun c n => command_rcpt
  refine ends_next hRcpt (fun _ w₅ hReady => ?_) fun _ h => .inl h
  have hData := @ends_cmd w₅ (.rcpt cfg.from'.toList [email.to'.toList])
    (.data cfg.from'.toList [email.to'.toList] []) mailbox "DATA".toList 354 hReady
    (by decide) (by decide) (hNotData _ (by simp)) (by
      intro c n h
      have hEq : some (354, MailPhase.data cfg.from'.toList [email.to'.toList] []) = some (c, n) := h
      cases hEq
      exact ⟨rfl, rfl⟩)
  refine ends_next hData (fun _ w₆ hReady => ?_) fun _ h => .inl h
  refine ⟨trivial, fun reply answer w₇ hExec => ⟨trivial, ?_⟩⟩
  cases reply with
  | stamped stamp =>
      cases hExec
      apply ends_mono _ (ends_message hReady)
      intro result w₈ hAfter
      cases result with
      | ok _ => exact hAfter.imp id fun h => ⟨stamp, h⟩
      | error e => exact hAfter.imp id fun h => h.imp id fun h => ⟨stamp, h⟩
  | greeting r => cases hExec
  | carried arrives verdict => cases hExec
  | arrived => cases hExec
  | failed => cases hExec
  | done => cases hExec

/-- After `conn.end()` the result of the dialogue is handed on. -/
theorem ends_close {result : Except SmtpError Unit} {Q : Except SmtpError Unit → MailWorld → Prop}
    (h : Q result { w with closed := true }) :
    ((perform SmtpCall.close : SmtpAction Unit).onReturn fun _ => .ret result).Ends mailExec Q w := by
  refine ⟨trivial, fun reply answer w₁ hExec => ⟨trivial, ?_⟩⟩
  cases reply with
  | done =>
      cases hExec
      exact h
  | greeting r => cases hExec
  | carried arrives verdict => cases hExec
  | arrived => cases hExec
  | failed => cases hExec
  | stamped stamp => cases hExec

/-- `send` resolves only when the server has taken the mail, and it ends the connection in
any case. -/
theorem ends_send (hFrom : OneLine cfg.from'.toList) (hTo : OneLine email.to'.toList)
    (hReady : w.Ready .fresh mailbox) :
    (SmtpMailSender.send cfg email).Ends mailExec (fun result after => after.closed = true ∧
      AfterCmd (fun after => ∃ stamp, after.server.mailbox = mailbox ++ [mailOf cfg email stamp])
        (fun after => after = mailbox ∨ ∃ stamp, after = mailbox ++ [mailOf cfg email stamp])
        result after) w := by
  have hRest : ∀ (w₁ : MailWorld) (replies : List SmtpReply), w₁.server = ⟨[], .fresh, mailbox⟩ →
      w₁.conn = .opened → w₁.incoming = replies.flatMap SmtpReply.wire → replies.length ≤ 1 →
      (replies ≠ [] → w₁.cut = false) →
      ((SmtpMailSender.dialogue cfg email).onReturn fun result =>
        (perform SmtpCall.close).onReturn fun _ => .ret result : SmtpAction Unit).Ends mailExec
          (fun result after => after.closed = true ∧
            AfterCmd (fun after => ∃ stamp, after.server.mailbox = mailbox ++ [mailOf cfg email stamp])
              (fun after => after = mailbox ∨ ∃ stamp, after = mailbox ++ [mailOf cfg email stamp])
              result after) w₁ := by
    intro w₁ replies hServer hConn hIncoming hOne hCut
    apply always_onReturn
    apply always_mono _ (ends_dialogue hFrom hTo hServer hConn hIncoming hOne hCut)
    intro result w₂ hAfter
    apply ends_close
    cases result with
    | ok _ => exact ⟨rfl, hAfter⟩
    | error e => exact ⟨rfl, hAfter⟩
  refine ⟨trivial, fun reply answer w₁ hExec => ⟨trivial, ?_⟩⟩
  cases reply with
  | greeting r =>
      cases hExec
      exact hRest _ [r] hReady.server hReady.conn (by simp [hReady.incoming]) le_rfl fun _ => hReady.cut
  | done =>
      cases hExec
      exact hRest _ [] hReady.server hReady.conn hReady.incoming (by simp) fun h => absurd rfl h
  | carried arrives verdict => cases hExec
  | arrived => cases hExec
  | failed => cases hExec
  | stamped stamp => cases hExec

/-- A server with a mailbox, before a client connects. -/
def MailWorld.before (mailbox : List Mail) : MailWorld :=
  ⟨⟨[], .fresh, mailbox⟩, [], .opened, false, false, false⟩

def plainText (text : String) (h : '\r' ∉ text.toList ∧ '\n' ∉ text.toList) : ReplyText :=
  ⟨[], text.toList, by simpa using h⟩

/-- A server that accepts everything, in replies of two lines. They arrive in three data events, the
first two of which end inside the first line. -/
def acceptingServer : SmtpCall → MailWorld → MailReply
  | .connect .., _ => .greeting (.of 220 ⟨["mx".toList], "ready".toList, by decide⟩)
  | .write s, _ => .carried s.length (.accept ⟨["fine".toList], "ok".toList, by decide⟩)
  | .read, w => .arrived [3, 2, w.incoming.length]
  | .close, _ => .done
  | .stamp, _ => .stamped sampleStamp

def sampleEmail : OutgoingEmail :=
  ⟨"user@example.com", "Hi", ".", "<p>.</p>"⟩

def sampleSmtp : SmtpConfig :=
  ⟨"mail.example.com", 25, false, some "u", some "p", "no-reply@example.com"⟩

/-- A server that takes the commands and refuses the message. Its reply to `DATA` has the text
"250 ok", which arrives in a data event of its own. -/
def refusingServer : SmtpCall → MailWorld → MailReply
  | .connect .., _ => .greeting (.of 220 (plainText "" (by decide)))
  | .write s, w =>
      match w.server.phase with
      | .rcpt .. => .carried s.length (.accept (plainText "250 ok" (by decide)))
      | .data .. => .carried s.length (.refuse 554 (plainText "" (by decide)) (by decide))
      | _ => .carried s.length (.accept (plainText "" (by decide)))
  | .read, w => .arrived (if "354".toList.isPrefixOf w.incoming then [4] else [8, 8])
  | .close, _ => .done
  | .stamp, _ => .stamped sampleStamp

/-- Where the final line of a reply is torn, `send` resolves although the server has refused the
mail: the rest of the line is taken for the next reply. -/
theorem refused_mail_resolves : ∃ after,
    (SmtpMailSender.send { sampleSmtp with user := none } sampleEmail).RunsTo mailExec (.before [])
      (.ok ()) after ∧ after.torn = true ∧ after.server.mailbox = [] := by
  have hEnd : ((SmtpMailSender.send { sampleSmtp with user := none } sampleEmail).outcome mailExec
      refusingServer (.before [])).map (fun out => (out.1.isOk, out.2.torn, out.2.server.mailbox)) =
        some (true, true, []) := by
    decide +kernel
  obtain ⟨⟨result, after⟩, hOutcome, hEnd⟩ := Option.map_eq_some_iff.mp hEnd
  simp only [Prod.mk.injEq] at hEnd
  cases result with
  | error e => cases hEnd.1
  | ok _ => exact ⟨after, runsTo_of_outcome hOutcome, hEnd.2.1, hEnd.2.2⟩

end dialogue

end VpnPayment
