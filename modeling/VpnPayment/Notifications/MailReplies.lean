import VpnPayment.Notifications.MailServer
import VpnPayment.Notifications.SmtpReplies

/-! How a client reads the one reply that a mail server has sent it, however the bytes of the
reply arrive. -/
namespace VpnPayment

open Crlf

namespace SmtpReply

variable {r : SmtpReply}

theorem lines_wire (r : SmtpReply) : lines r.wire = (r.continued ++ [r.finalLine]) ++ [[]] := by
  have hWhole : ∀ l ∈ r.continued ++ [r.finalLine], Whole l := by
    intro l hl
    rcases List.mem_append.mp hl with hl | hl
    · exact whole_of_notMem (plain_continued hl).2
    · rw [List.mem_singleton.mp hl]
      exact whole_of_notMem r.plain_finalLine.2
  have hLines := lines_flatMap hWhole []
  rwa [List.append_nil] at hLines

/-- The code that a reply was made of. -/
theorem code_of {code : Nat} (h : code < 1000) (t : ReplyText) : (SmtpReply.of code t).code = code := by
  have hValue : Decimal.value (codeDigits code) = code := by
    unfold codeDigits Decimal.value
    rw [Nat.ofDigitChars_cons_digitChar_of_lt_ten (by omega),
      Nat.ofDigitChars_cons_digitChar_of_lt_ten (by omega),
      Nat.ofDigitChars_cons_digitChar_of_lt_ten (by omega), Nat.ofDigitChars_nil]
    omega
  exact hValue

/-- A read resolves with the whole reply and leaves nothing behind. -/
theorem tryResolve_wire (r : SmtpReply) : ∃ response,
    SmtpConn.tryResolve ⟨r.wire, true⟩ = (.opened, some response) ∧ response.code = r.code := by
  have hQuiet : r.continued.findIdx? isFinalLine = none :=
    List.findIdx?_eq_none_iff.mpr fun l hl => isFinalLine_continued hl
  have hFirst : (lines r.wire).findIdx? isFinalLine = some r.continued.length := by
    rw [lines_wire, List.append_assoc, List.findIdx?_append, hQuiet]
    simp [List.findIdx?_cons, isFinalLine_finalLine]
  have hLine : (lines r.wire).getD r.continued.length [] = r.finalLine := by
    simp [lines_wire]
  have hTaken : (lines r.wire).take (r.continued.length + 1) = r.continued ++ [r.finalLine] := by
    rw [lines_wire]
    exact List.take_left' (by simp)
  have hDone : r.wire.drop (joinedLength ((lines r.wire).take (r.continued.length + 1)) + 2) = [] := by
    have hAll : joinedLength (lines r.wire) = r.wire.length :=
      (joinedLength_linesFrom [] r.wire).trans (Nat.zero_add _)
    rw [hTaken, ← joinedLength_concat_nil (by simp), ← lines_wire, hAll, List.drop_length]
  refine ⟨⟨r.code, List.intercalate ['\n'] (r.continued ++ [r.finalLine])⟩, ?_, rfl⟩
  simp only [SmtpConn.tryResolve, hFirst, hDone, hLine, lineCode_finalLine]
  rw [hTaken]
  rfl

/-- A part of a reply that does not end inside its final line has no final line. -/
theorem no_final_of_cut {a b : List Char} (h : a ++ b = r.wire) (hMore : b ≠ [])
    (hOpen : isFinalLine (unfinished (lines a)) = false) : ∀ l ∈ lines a, isFinalLine l = false := by
  have hLines : lines (a ++ b) = (r.continued ++ [r.finalLine]) ++ [[]] := h ▸ r.lines_wire
  have hEarlier := finished_of_cut hLines hMore
  rw [List.dropLast_concat] at hEarlier
  intro l hl
  have hSplit : lines a = (lines a).dropLast ++ [unfinished (lines a)] := by
    have hSome : lines a ≠ [] := linesFrom_ne_nil [] a
    have hLast : unfinished (lines a) = (lines a).getLast hSome := by
      rw [unfinished, List.getLastD_eq_getLast?, List.getLast?_eq_some_getLast hSome]
      rfl
    rw [hLast]
    exact (List.dropLast_append_getLast hSome).symm
  rw [hSplit, List.mem_append, List.mem_singleton] at hl
  rcases hl with hl | rfl
  · exact isFinalLine_continued (hEarlier.subset hl)
  · exact hOpen

end SmtpReply

namespace SmtpConn

/-- Without a final line a read waits. -/
theorem tryResolve_waits {conn : SmtpConn} (h : ∀ l ∈ lines conn.buffer, isFinalLine l = false) :
    conn.tryResolve = (conn, none) := by
  have hNone : (lines conn.buffer).findIdx? isFinalLine = none := List.findIdx?_eq_none_iff.mpr h
  simp [tryResolve, hNone]

theorem tryResolve_empty (waiter : Bool) : tryResolve ⟨[], waiter⟩ = (⟨[], waiter⟩, none) :=
  tryResolve_waits (by simp [lines, show isFinalLine [] = false from rfl])

end SmtpConn

namespace MailWorld

variable {w next : MailWorld} {r : SmtpReply} {response : Option SmtpResponse} {sizes : List Nat}

/-- Data events change the client's end and what has not arrived. -/
structure Heard (w next : MailWorld) : Prop where
  server : next.server = w.server
  cut : next.cut = w.cut
  closed : next.closed = w.closed
  torn : w.torn = true → next.torn = true

theorem hear_heard (w : MailWorld) (sizes : List Nat) : Heard w (w.hear sizes).1 := by
  induction sizes generalizing w with
  | nil => exact ⟨rfl, rfl, rfl, id⟩
  | cons n sizes ih =>
      rw [hear]
      dsimp only
      split
      · exact ⟨rfl, rfl, rfl, fun h => by simp [h]⟩
      · obtain ⟨hServer, hCut, hClosed, hTorn⟩ := ih { w with
          conn := (w.conn.onData (w.incoming.take n)).1
          incoming := w.incoming.drop n
          torn := w.torn || isFinalLine (unfinished (lines (w.conn.buffer ++ w.incoming.take n))) }
        exact ⟨hServer, hCut, hClosed, fun h => hTorn (by simp [h])⟩

theorem not_final_of_hear {n : Nat} (hTorn : (w.hear (n :: sizes)).1.torn = false) :
    isFinalLine (unfinished (lines (w.conn.buffer ++ w.incoming.take n))) = false := by
  cases hFinal : isFinalLine (unfinished (lines (w.conn.buffer ++ w.incoming.take n))) with
  | false => rfl
  | true =>
      have hOpen : (w.hear (n :: sizes)).1.torn = true := by
        rw [hear]
        dsimp only
        split
        · simp [hFinal]
        · exact (hear_heard _ sizes).torn (by simp [hFinal])
      rw [hOpen] at hTorn
      cases hTorn

/-- Where nothing was sent nothing is heard. -/
theorem hear_silence (hBuffer : w.conn.buffer = []) (hIncoming : w.incoming = []) :
    (w.hear sizes).2 = none := by
  induction sizes generalizing w with
  | nil => rfl
  | cons n sizes ih =>
      have hWaits : w.conn.onData (w.incoming.take n) = (⟨[], w.conn.waiter⟩, none) := by
        simp [SmtpConn.onData, hBuffer, hIncoming, SmtpConn.tryResolve_empty]
      rw [hear, hWaits]
      exact ih rfl (by simp [hIncoming])

/-- A reply that is heard without a data event inside its final line is heard whole. -/
theorem hear_wire {answer : SmtpResponse} (hWire : w.conn.buffer ++ w.incoming = r.wire)
    (hWaits : w.conn.waiter = true) (hMore : w.incoming ≠ []) (h : w.hear sizes = (next, some answer))
    (hTorn : next.torn = false) : answer.code = r.code ∧
      next = { w with conn := .opened, incoming := [], torn := false } := by
  induction sizes generalizing w with
  | nil => cases h
  | cons n sizes ih =>
      have hParts : w.conn.buffer ++ w.incoming.take n ++ w.incoming.drop n = r.wire := by
        rw [List.append_assoc, List.take_append_drop, hWire]
      have hData : w.conn.onData (w.incoming.take n) =
          SmtpConn.tryResolve ⟨w.conn.buffer ++ w.incoming.take n, true⟩ := by
        rw [SmtpConn.onData, hWaits]
      have hOpen := not_final_of_hear (w := w) (by rw [h]; exact hTorn)
      rw [hear, hData] at h
      by_cases hRest : w.incoming.drop n = []
      · -- the reply is complete
        rw [hRest, List.append_nil] at hParts
        obtain ⟨whole, hResolve, hCode⟩ := r.tryResolve_wire
        rw [hParts, hResolve] at h
        dsimp only at h
        obtain ⟨rfl, hSame⟩ := Prod.mk.inj h
        cases hSame
        refine ⟨hCode, ?_⟩
        dsimp only at hTorn
        rw [hTorn, hRest]
      · -- it is not, and no line of it that has arrived is final
        have hQuiet := SmtpReply.no_final_of_cut hParts hRest hOpen
        rw [SmtpConn.tryResolve_waits hQuiet] at h
        exact ih (w := ⟨w.server, w.incoming.drop n, ⟨w.conn.buffer ++ w.incoming.take n, true⟩, _,
          w.cut, w.closed⟩) hParts rfl hRest h

/-- A read of the one reply that was sent, if one was. -/
theorem read_replies {replies : List SmtpReply} {answer : SmtpResponse} (hConn : w.conn = .opened)
    (hIncoming : w.incoming = replies.flatMap SmtpReply.wire) (hOne : replies.length ≤ 1)
    (h : w.read sizes = (next, some answer)) (hTorn : next.torn = false) :
    ∃ r ∈ replies, answer.code = r.code ∧ next = { w with incoming := [], torn := false } := by
  have hWaits : w.conn.read = (⟨[], true⟩, none) := by
    rw [hConn]
    exact SmtpConn.tryResolve_empty true
  rw [read, hWaits] at h
  dsimp only at h
  cases replies with
  | nil =>
      have hNone : (hear { w with conn := ⟨[], true⟩ } sizes).2 = none := hear_silence rfl hIncoming
      rw [h] at hNone
      cases hNone
  | cons r rest =>
      obtain rfl : rest = [] := List.length_eq_zero_iff.mp (by simpa using hOne)
      have hWire : w.incoming = r.wire := by simpa using hIncoming
      have hSome : w.incoming ≠ [] := by
        rw [hWire, ne_eq, ← List.length_eq_zero_iff, r.length_wire]
        omega
      obtain ⟨hCode, hNext⟩ := hear_wire (w := { w with conn := ⟨[], true⟩ }) hWire rfl hSome h hTorn
      refine ⟨r, List.mem_singleton_self r, hCode, ?_⟩
      rw [hNext, ← hConn]

theorem read_heard (w : MailWorld) (sizes : List Nat) : Heard w (w.read sizes).1 := by
  unfold read
  dsimp only
  split
  · exact ⟨rfl, rfl, rfl, id⟩
  · obtain ⟨hServer, hCut, hClosed, hTorn⟩ := hear_heard { w with conn := w.conn.read.1 } sizes
    exact ⟨hServer, hCut, hClosed, hTorn⟩

end MailWorld
end VpnPayment
