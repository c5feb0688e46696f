import Mathlib.Data.List.Induction
import VpnPayment.Notifications.SmtpConn

/-! Where the data events of a connection may end without a reply being lost or made up. -/
namespace VpnPayment

open Crlf

/-- The code of every reply of a stream, with the place of its final line. -/
def replyPlaces : Nat → List SmtpReply → List (Nat × Nat)
  | _, [] => []
  | place, r :: rest => (place + r.finalAt, r.code) :: replyPlaces (place + r.wire.length) rest

/-- The places at which data events end. -/
def dataEnds : Nat → List (List Char) → List Nat
  | _, [] => []
  | place, d :: rest => (place + d.length) :: dataEnds (place + d.length) rest

/-- How far the first data event that ends inside the final line at `place`, behind its code
and space, cuts into it. The line ends with CR and LF. -/
def firstCut (ends : List Nat) (place : Nat) (line : List Char) : Option Nat :=
  (List.range' 4 (line.length - 2)).find? fun o => place + o ∈ ends

/-- The cut does no harm if the rest of the line does not look like a final line again, and, where
it falls between CR and LF, no single-line reply comes next. -/
def harmless (line : List Char) (next : Option SmtpReply) (o : Nat) : Bool :=
  if o ≤ line.length then !isFinalLine (line.drop o)
  else next.all fun r => !r.more.isEmpty

/-- The first cut into each final line does no harm. -/
def ReadsWell (ends : List Nat) : Nat → List SmtpReply → Bool
  | _, [] => true
  | place, r :: rest =>
      (firstCut ends (place + r.finalAt) r.finalLine).all (harmless r.finalLine rest.head?) &&
        ReadsWell ends (place + r.wire.length) rest

section session

/-- The final lines among the lines of a text that begins at `place`. -/
def finals (place : Nat) : List (List Char) → List (Nat × Nat)
  | [] => []
  | l :: ls => (if isFinalLine l then [(place, lineCode l)] else []) ++
      finals (place + l.length + 2) ls

/-- What is left of the unfinished line once the final lines are read, and where it begins. -/
def leftOver (place : Nat) : List (List Char) → Nat × List Char
  | [] => (place, [])
  | [l] => if isFinalLine l then (place + l.length, []) else (place, l)
  | l :: next :: more => leftOver (place + l.length + 2) (next :: more)

/-- The final lines that the data events bring, where `left` is left over from before. -/
def heard : Nat × List Char → List (List Char) → List (Nat × Nat)
  | _, [] => []
  | left, d :: rest => finals left.1 (linesFrom left.2 d) ++
      heard (leftOver left.1 (linesFrom left.2 d)) rest

/-- No reply ends as long as no line is final. -/
theorem finals_eq_nil_iff (place : Nat) {ls : List (List Char)} :
    finals place ls = [] ↔ ∀ l ∈ ls, isFinalLine l = false := by
  induction ls generalizing place with
  | nil => simp [finals]
  | cons l ls ih =>
      rw [finals, List.append_eq_nil_iff, ih, List.forall_mem_cons]
      cases isFinalLine l <;> simp

theorem leftOver_cons {place : Nat} {l : List Char} {ls : List (List Char)} (hMore : ls ≠ []) :
    leftOver place (l :: ls) = leftOver (place + l.length + 2) ls := by
  cases ls with
  | nil => exact absurd rfl hMore
  | cons next more => rfl

/-- The unfinished line begins where the finished ones end. -/
theorem leftOver_place (place : Nat) {ls : List (List Char)} (hNonempty : ls ≠ []) :
    (leftOver place ls).1 + (leftOver place ls).2.length = place + joinedLength ls := by
  induction ls generalizing place with
  | nil => exact absurd rfl hNonempty
  | cons l ls ih =>
      cases ls with
      | nil =>
          rw [leftOver]
          split <;> simp [joinedLength]
      | cons next more =>
          rw [leftOver, ih _ (List.cons_ne_nil _ _), joinedLength_cons]
          omega

/-- The unfinished line does not end a reply yet. -/
theorem leftOver_not_final (place : Nat) (ls : List (List Char)) :
    isFinalLine (leftOver place ls).2 = false := by
  induction ls generalizing place with
  | nil => rfl
  | cons l ls ih =>
      cases ls with
      | nil =>
          rw [leftOver]
          split
          · rfl
          · next hNot => simpa using hNot
      | cons next more => exact ih _

/-- Where no line is final, all that is read comes from the lines that follow. -/
theorem finals_goOn (place : Nat) {ls new : List (List Char)} (hQuiet : ∀ l ∈ ls, isFinalLine l = false)
    (hNonempty : ls ≠ []) (hNew : new ≠ []) :
    (leftOver place ls).2 = unfinished ls ∧
      finals place (ls.dropLast ++ new) = finals (leftOver place ls).1 new ∧
      leftOver place (ls.dropLast ++ new) = leftOver (leftOver place ls).1 new := by
  induction ls generalizing place with
  | nil => exact absurd rfl hNonempty
  | cons l ls ih =>
      have hFirst : isFinalLine l = false := hQuiet l (by simp)
      cases ls with
      | nil => simp [leftOver, hFirst, unfinished]
      | cons next more =>
          obtain ⟨hLeft, hFinals, hRest⟩ := ih (place + l.length + 2)
            (fun x hx => hQuiet x (List.mem_cons_of_mem _ hx)) (List.cons_ne_nil _ _)
          have hMore : (next :: more).dropLast ++ new ≠ [] := List.append_ne_nil_of_right_ne_nil _ hNew
          rw [List.dropLast_cons_of_ne_nil (List.cons_ne_nil next more), List.cons_append, finals,
            if_neg (by simp [hFirst]), List.nil_append, hFinals]
          refine ⟨by simpa [leftOver, unfinished] using hLeft, rfl, ?_⟩
          cases hTail : (next :: more).dropLast ++ new with
          | nil => exact absurd hTail hMore
          | cons x xs =>
              rw [hTail] at hRest
              exact hRest

theorem finalPlace_cons (l : List Char) (ls : List (List Char)) : SmtpSession.finalPlace (l :: ls) =
    if isFinalLine l then 0 else l.length + 2 + SmtpSession.finalPlace ls := by
  cases hFinal : isFinalLine l <;> simp [SmtpSession.finalPlace, hFinal]

/-- What is removed from a buffer is its text up to the first final line. -/
theorem removed_lines {buffer : List Char} {i : Nat}
    (hFirst : (lines buffer).findIdx? isFinalLine = some i) :
    ∃ left, buffer.drop (joinedLength ((lines buffer).take (i + 1)) + 2) = left ∧
      left.length ≤ buffer.length ∧ ∀ place,
        finals place (lines buffer) = (place + SmtpSession.finalPlace (lines buffer),
          lineCode ((lines buffer).getD i [])) ::
            finals (place + (buffer.length - left.length)) (lines left) ∧
        leftOver place (lines buffer) =
          leftOver (place + (buffer.length - left.length)) (lines left) := by
  induction hLines : lines buffer generalizing buffer i with
  | nil => exact absurd hLines (linesFrom_ne_nil [] buffer)
  | cons l ls ih =>
      rw [hLines] at hFirst
      have hRest : ∀ next more, ls = next :: more →
          ∃ rest, buffer = l ++ '\r' :: '\n' :: rest ∧ lines rest = ls := by
        rintro next more rfl
        exact linesFrom_cons hLines
      cases hFinal : isFinalLine l with
      | true =>
          obtain rfl : 0 = i := by simpa [List.findIdx?_cons, hFinal] using hFirst
          cases ls with
          | nil =>
              obtain rfl : l = buffer := linesFrom_singleton hLines
              refine ⟨[], by simp [joinedLength], Nat.zero_le _, fun place => ?_⟩
              simp [finals, leftOver, finalPlace_cons, hFinal, lines, show isFinalLine [] = false from rfl]
          | cons next more =>
              obtain ⟨rest, rfl, hMore⟩ := hRest next more rfl
              refine ⟨rest, by simp [joinedLength, ← List.drop_drop], by simp; omega, fun place => ?_⟩
              have hAfter : place + ((l ++ '\r' :: '\n' :: rest).length - rest.length) =
                  place + l.length + 2 := by
                simp only [List.length_append, List.length_cons]
                omega
              rw [hAfter, hMore, finals, leftOver, finalPlace_cons, hFinal]
              simp
      | false =>
          cases ls with
          | nil => simp [List.findIdx?_cons, hFinal] at hFirst
          | cons next more =>
              obtain ⟨rest, rfl, hMore⟩ := hRest next more rfl
              obtain ⟨j, hNext, rfl⟩ : ∃ j, (next :: more).findIdx? isFinalLine = some j ∧ j + 1 = i := by
                simpa [List.findIdx?_cons, hFinal] using hFirst
              obtain ⟨left, hDrop, hShorter, hRead⟩ := ih (hMore ▸ hNext) hMore
              refine ⟨left, ?_, ?_, fun place => ?_⟩
              · rw [List.take_succ_cons, List.take_succ_cons, joinedLength_cons, ← List.take_succ_cons,
                  Nat.add_assoc, ← List.drop_drop]
                simpa using hDrop
              · simp only [List.length_append, List.length_cons]
                omega
              · obtain ⟨hFinals, hLeft⟩ := hRead (place + l.length + 2)
                have hAfter : place + ((l ++ '\r' :: '\n' :: rest).length - left.length) =
                    place + l.length + 2 + (rest.length - left.length) := by
                  simp only [List.length_append, List.length_cons]
                  omega
                rw [hAfter, ← hLeft, finals, hFinals, finalPlace_cons l, hFinal]
                exact ⟨by simp [Nat.add_assoc], rfl⟩

/-- The codes that were read, with their places. -/
def SmtpSession.places (s : SmtpSession) : List (Nat × Nat) :=
  s.responses.map fun response => (response.1, response.2.code)

/-- What a data event and a call of `read` have in common: the buffer is read while a promise
is pending. -/
def SmtpSession.resolve (s : SmtpSession) (buffer : List Char) : SmtpSession :=
  let (conn, response) := SmtpConn.tryResolve ⟨buffer, true⟩
  ⟨conn, s.removed + (buffer.length - conn.buffer.length), s.responses ++
    (response.map fun r => (s.removed + SmtpSession.finalPlace (lines buffer), r)).toList⟩

/-- The first final line of the buffer is read, and the others stay behind. -/
theorem SmtpSession.resolve_reads (s : SmtpSession) (buffer : List Char) :
    s.places ++ finals s.removed (lines buffer) = (s.resolve buffer).places ++
        finals (s.resolve buffer).removed (lines (s.resolve buffer).conn.buffer) ∧
      leftOver s.removed (lines buffer) =
        leftOver (s.resolve buffer).removed (lines (s.resolve buffer).conn.buffer) ∧
      ((s.resolve buffer).conn.waiter = true →
        ∀ l ∈ lines (s.resolve buffer).conn.buffer, isFinalLine l = false) := by
  cases hFirst : (lines buffer).findIdx? isFinalLine with
  | none =>
      have hSame : s.resolve buffer = ⟨⟨buffer, true⟩, s.removed, s.responses⟩ := by
        simp [SmtpSession.resolve, SmtpConn.tryResolve, hFirst]
      rw [hSame]
      exact ⟨rfl, rfl, fun _ => by simpa using List.findIdx?_eq_none_iff.mp hFirst⟩
  | some i =>
      obtain ⟨left, hDrop, -, hRead⟩ := removed_lines hFirst
      obtain ⟨hFinals, hLeft⟩ := hRead s.removed
      have hTaken : s.resolve buffer = ⟨⟨left, false⟩, s.removed + (buffer.length - left.length),
          s.responses ++ [(s.removed + SmtpSession.finalPlace (lines buffer),
            ⟨lineCode ((lines buffer).getD i []),
              List.intercalate ['\n'] ((lines buffer).take (i + 1))⟩)]⟩ := by
        simp [SmtpSession.resolve, SmtpConn.tryResolve, hFirst, hDrop]
      rw [hTaken, hFinals]
      refine ⟨by simp [SmtpSession.places], hLeft, fun hWaits => ?_⟩
      cases hWaits

/-- By induction on the events: the final lines that are in the buffer and those that the data
events bring are read in order. -/
theorem SmtpSession.run_reads {s : SmtpSession} {events : List SmtpEvent} (hTurn : s.InTurn events)
    (hQuiet : s.conn.waiter = true → ∀ l ∈ lines s.conn.buffer, isFinalLine l = false) :
    (s.run events).places = s.places ++ finals s.removed (lines s.conn.buffer) ++
      heard (leftOver s.removed (lines s.conn.buffer)) (SmtpEvent.chunks events) := by
  induction events generalizing s with
  | nil =>
      have hNone := (finals_eq_nil_iff s.removed).mpr (hQuiet hTurn)
      simp [SmtpSession.run, hNone, SmtpEvent.chunks, heard]
  | cons event rest ih =>
      cases event with
      | read =>
          have hStep : s.step .read = s.resolve s.conn.buffer := rfl
          obtain ⟨hPlaces, hLeft, hQuiet'⟩ := s.resolve_reads s.conn.buffer
          have hNext := hTurn.2
          rw [hStep] at hNext
          have hRun := ih hNext hQuiet'
          rw [hPlaces, hLeft]
          exact hRun
      | data d =>
          obtain ⟨hWaits, hNext⟩ := hTurn
          have hStep : s.step (.data d) = s.resolve (s.conn.buffer ++ d) := by
            simp [SmtpSession.step, SmtpConn.onData, SmtpSession.resolve, hWaits]
          obtain ⟨hPlaces, hLeft, hQuiet'⟩ := s.resolve_reads (s.conn.buffer ++ d)
          obtain ⟨hOpen, hFinals, hRest⟩ := finals_goOn s.removed (hQuiet hWaits)
            (linesFrom_ne_nil [] _) (linesFrom_ne_nil (unfinished (lines s.conn.buffer)) d)
          have hLines : lines (s.conn.buffer ++ d) = (lines s.conn.buffer).dropLast ++
              linesFrom (unfinished (lines s.conn.buffer)) d := linesFrom_append [] _ d
          have hNone := (finals_eq_nil_iff s.removed).mpr (hQuiet hWaits)
          rw [hStep] at hNext
          have hRun := ih hNext hQuiet'
          rw [← hPlaces, ← hLeft, hLines] at hRun
          rw [SmtpSession.run, List.foldl_cons, hStep, ← SmtpSession.run, hRun, hNone]
          have hChunks : SmtpEvent.chunks (.data d :: rest) = d :: SmtpEvent.chunks rest := rfl
          rw [hChunks, heard, hOpen, hFinals, hRest]
          simp

end session

section stream

variable {ends : List Nat} {place pos : Nat} {cur : List Char}

/-- The final lines that are read from the stream at `pos`, where the line that begins at `place`
has begun with `cur`. A line is read at its end, or at the end of a data event before. -/
def listen (ends : List Nat) (place pos : Nat) (cur : List Char) : List Char → List (Nat × Nat)
  | [] => []
  | c :: rest =>
      if c = '\n' ∧ cur.getLast? = some '\r' then
        (if isFinalLine cur.dropLast then [(place, lineCode cur.dropLast)] else []) ++
          listen ends (pos + 1) (pos + 1) [] rest
      else if pos + 1 ∈ ends ∧ isFinalLine (cur ++ [c]) then
        (place, lineCode (cur ++ [c])) :: listen ends (pos + 1) (pos + 1) [] rest
      else listen ends place (pos + 1) (cur ++ [c]) rest

/-- A data event that ends behind `d` and not before. -/
theorem listen_event {d rest : List Char} (hPos : pos = place + cur.length)
    (hQuiet : d = [] → isFinalLine cur = false)
    (hInside : ∀ j, 0 < j → j < d.length → pos + j ∉ ends)
    (hEnd : d ≠ [] → pos + d.length ∈ ends) :
    listen ends place pos cur (d ++ rest) = finals place (linesFrom cur d) ++
      listen ends (leftOver place (linesFrom cur d)).1 (pos + d.length)
        (leftOver place (linesFrom cur d)).2 rest := by
  induction d generalizing place pos cur with
  | nil => simp [finals, leftOver, hQuiet rfl]
  | cons c d ih =>
      have hInside' : ∀ j, 0 < j → j < d.length → pos + 1 + j ∉ ends := by
        intro j _ hLt
        have hNot := hInside (j + 1) (by omega) (by simpa using hLt)
        rwa [Nat.add_assoc, Nat.add_comm 1 j]
      have hEnd' : pos + 1 + d.length ∈ ends := by
        have hMem := hEnd (List.cons_ne_nil c d)
        rwa [List.length_cons, Nat.add_comm d.length 1, ← Nat.add_assoc] at hMem
      have hAfter : pos + (c :: d).length = pos + 1 + d.length := by
        simp only [List.length_cons]
        omega
      rw [List.cons_append, listen, linesFrom, hAfter]
      split
      · next hLine =>
          -- the line ends here
          have hPlace : place + cur.dropLast.length + 2 = pos + 1 := by
            have hNonempty : cur ≠ [] := by
              rintro rfl
              simp at hLine
            have hSome := List.length_pos_iff.mpr hNonempty
            simp only [List.length_dropLast]
            omega
          have hStart : pos + 1 = pos + 1 + ([] : List Char).length := rfl
          have hNext := ih hStart (fun _ => rfl) hInside' fun _ => hEnd'
          rw [hNext, finals, leftOver_cons (linesFrom_ne_nil [] d), hPlace, List.append_assoc]
      · cases d with
        | nil =>
            -- the event ends here
            have hHere : pos + 1 ∈ ends := hEnd'
            split
            · next hFinal => simp [finals, leftOver, hFinal.2, hPos, Nat.add_assoc]
            · next hNot =>
                have hQuiet' : isFinalLine (cur ++ [c]) = false := by simpa [hHere] using hNot
                simp [finals, leftOver, hQuiet']
        | cons next d =>
            have hNotHere : pos + 1 ∉ ends := hInside 1 (by omega) (by simp)
            rw [if_neg fun h => hNotHere h.1]
            exact ih (by simp [hPos, Nat.add_assoc]) (fun h => absurd h (List.cons_ne_nil _ _)) hInside'
              fun _ => hEnd'

/-- No chunk ends before the place where it begins. -/
theorem le_of_mem_dataEnds {chunks : List (List Char)} {n : Nat} (h : n ∈ dataEnds pos chunks) :
    pos ≤ n := by
  induction chunks generalizing pos with
  | nil => cases h
  | cons d rest ih =>
      rcases List.mem_cons.mp h with rfl | hMem
      · exact Nat.le_add_right pos d.length
      · exact (Nat.le_add_right pos d.length).trans (ih hMem)

variable (ends place pos cur) in
/-- What the data events bring is what the stream brings that they make up. -/
theorem heard_eq_listen (chunks : List (List Char)) (hPos : pos = place + cur.length)
    (hQuiet : isFinalLine cur = false) (hEnds : ∀ n, pos < n → (n ∈ ends ↔ n ∈ dataEnds pos chunks)) :
    heard (place, cur) chunks = listen ends place pos cur chunks.flatten := by
  induction chunks generalizing place pos cur with
  | nil => rfl
  | cons d rest ih =>
      have hInside : ∀ j, 0 < j → j < d.length → pos + j ∉ ends := by
        intro j hSome hLt hMem
        rcases List.mem_cons.mp ((hEnds _ (by omega)).mp hMem) with hEq | hLater
        · omega
        · have hLe := le_of_mem_dataEnds hLater
          omega
      have hEnd : d ≠ [] → pos + d.length ∈ ends := by
        intro hNonempty
        have hSome := List.length_pos_iff.mpr hNonempty
        exact (hEnds _ (by omega)).mpr (List.mem_cons_self ..)
      have hEnds' : ∀ n, pos + d.length < n → (n ∈ ends ↔ n ∈ dataEnds (pos + d.length) rest) := by
        intro n hLt
        rw [hEnds n (by omega), dataEnds, List.mem_cons, or_iff_right (by omega)]
      have hPlace := leftOver_place place (linesFrom_ne_nil cur d)
      have hPos' : pos + d.length =
          (leftOver place (linesFrom cur d)).1 + (leftOver place (linesFrom cur d)).2.length := by
        rw [hPlace, joinedLength_linesFrom]
        omega
      rw [heard, List.flatten_cons, listen_event hPos (fun _ => hQuiet) hInside hEnd,
        ih _ _ _ hPos' (leftOver_not_final _ _) hEnds']

end stream

section lines

variable {ends : List Nat} {place pos : Nat} {cur t rest a b : List Char} {c : Char}

theorem isFinalLine_cons (w x y z : Char) (more : List Char) :
    isFinalLine (w :: x :: y :: z :: more) = (w.isDigit && x.isDigit && y.isDigit && z = ' ') := by
  by_cases hSpace : z = ' '
  · subst hSpace
    simp [isFinalLine]
  · unfold isFinalLine
    split
    · next hEq => simp_all
    · simp [hSpace]

/-- A line that looks final goes on looking final as it grows. -/
theorem isFinalLine_append (h : isFinalLine a = true) (b : List Char) : isFinalLine (a ++ b) = true := by
  unfold isFinalLine at h
  split at h
  · simpa [isFinalLine] using h
  · cases h

/-- The first four characters decide whether a line is final. -/
theorem isFinalLine_of_append (h : isFinalLine (a ++ b) = true) (hLong : 4 ≤ a.length) :
    isFinalLine a = true := by
  match a, hLong with
  | w :: x :: y :: z :: more, _ =>
      simp only [List.cons_append] at h
      rwa [isFinalLine_cons] at h ⊢

/-- The space decides, so no other character makes a line final. -/
theorem isFinalLine_concat (hSpace : c ≠ ' ') : isFinalLine (a ++ [c]) = isFinalLine a := by
  match a with
  | [] => rfl
  | [_] => rfl
  | [_, _] => rfl
  | [_, _, _] => simp [isFinalLine, hSpace]
  | w :: x :: y :: z :: more =>
      simp only [List.cons_append]
      rw [isFinalLine_cons, isFinalLine_cons]

/-- A stray LF at its beginning hides a line. -/
theorem isFinalLine_stray (l : List Char) : isFinalLine ('\n' :: l) = false := by
  unfold isFinalLine
  split
  · next hEq =>
      obtain ⟨rfl, -⟩ := List.cons.inj hEq
      rfl
  · rfl

theorem four_le_of_isFinalLine (h : isFinalLine a = true) : 4 ≤ a.length := by
  unfold isFinalLine at h
  split at h
  · simp
  · cases h

/-- The code is in the first three characters. -/
theorem lineCode_append (hLong : 3 ≤ a.length) (b : List Char) : lineCode (a ++ b) = lineCode a := by
  simp [lineCode, List.take_append_of_le_length hLong]

variable (cur) in
/-- Nothing is read from a line that is not final. -/
theorem listen_quiet (hPlain : '\r' ∉ t ∧ '\n' ∉ t) (hQuiet : isFinalLine (cur ++ t) = false) :
    listen ends place pos cur (t ++ '\r' :: '\n' :: rest) =
      listen ends (pos + t.length + 2) (pos + t.length + 2) [] rest := by
  induction t generalizing cur pos with
  | nil =>
      rw [List.append_nil] at hQuiet
      have hCr : isFinalLine (cur ++ ['\r']) = false := by
        rw [isFinalLine_concat (by decide), hQuiet]
      simp [listen, hCr, hQuiet]
  | cons c t ih =>
      simp only [List.mem_cons, not_or] at hPlain
      have hOpen : isFinalLine (cur ++ [c]) = false := by
        by_contra hFinal
        have hLine := isFinalLine_append (by simpa using hFinal) t
        rw [List.append_assoc, List.singleton_append, hQuiet] at hLine
        cases hLine
      rw [List.cons_append, listen, if_neg fun h => hPlain.2.1 h.1.symm, if_neg (by simp [hOpen]),
        ih _ ⟨hPlain.1.2, hPlain.2.2⟩ (by simpa using hQuiet)]
      simp only [List.length_cons]
      rw [show pos + 1 + t.length + 2 = pos + (t.length + 1) + 2 by omega]

variable (cur) in
/-- A final line into which no data event cuts is read at its end. -/
theorem listen_uncut (hPos : pos = place + cur.length) (hPlain : '\r' ∉ t ∧ '\n' ∉ t)
    (hFinal : isFinalLine (cur ++ t) = true)
    (hUncut : ∀ o, 4 ≤ o → cur.length < o → o ≤ (cur ++ t).length + 1 → place + o ∉ ends) :
    listen ends place pos cur (t ++ '\r' :: '\n' :: rest) =
      (place, lineCode (cur ++ t)) :: listen ends (pos + t.length + 2) (pos + t.length + 2) [] rest := by
  induction t generalizing cur pos with
  | nil =>
      rw [List.append_nil] at hFinal hUncut
      have hLong := four_le_of_isFinalLine hFinal
      have hNot : pos + 1 ∉ ends := by
        rw [hPos, Nat.add_assoc]
        exact hUncut _ (by omega) (by omega) (by omega)
      simp [listen, hNot, hFinal]
  | cons c t ih =>
      simp only [List.mem_cons, not_or] at hPlain
      have hNot : ¬(pos + 1 ∈ ends ∧ isFinalLine (cur ++ [c]) = true) := by
        rintro ⟨hMem, hHere⟩
        have hLong := four_le_of_isFinalLine hHere
        simp only [List.length_append, List.length_singleton] at hLong
        rw [hPos, Nat.add_assoc] at hMem
        exact hUncut _ hLong (by omega) (by simp) hMem
      rw [List.cons_append, listen, if_neg fun h => hPlain.2.1 h.1.symm, if_neg hNot,
        ih _ (by simp [hPos, Nat.add_assoc]) ⟨hPlain.1.2, hPlain.2.2⟩ (by simpa using hFinal)
          fun o hLong hLt hLe => hUncut o hLong (by simp at hLt; omega) (by simpa using hLe)]
      simp only [List.length_cons, List.append_assoc, List.singleton_append]
      rw [show pos + 1 + t.length + 2 = pos + (t.length + 1) + 2 by omega]

variable (cur) in
/-- A final line into which a data event cuts is read there, and the stream goes on with the rest
of it. -/
theorem listen_cut {o : Nat} (hPos : pos = place + cur.length) (hPlain : '\r' ∉ t ∧ '\n' ∉ t)
    (hFinal : isFinalLine (cur ++ t) = true) (hBehind : cur.length < o) (hLong : 4 ≤ o)
    (hInside : o ≤ (cur ++ t).length + 1) (hCut : place + o ∈ ends)
    (hFirst : ∀ o', 4 ≤ o' → o' < o → place + o' ∉ ends) :
    listen ends place pos cur (t ++ '\r' :: '\n' :: rest) =
      (place, lineCode (cur ++ t)) :: listen ends (place + o) (place + o) []
        ((t ++ '\r' :: '\n' :: rest).drop (o - cur.length)) := by
  induction t generalizing cur pos with
  | nil =>
      rw [List.append_nil] at hFinal hInside
      obtain rfl : o = cur.length + 1 := by omega
      have hHere : isFinalLine (cur ++ ['\r']) = true := isFinalLine_append hFinal _
      have hCode : lineCode (cur ++ ['\r']) = lineCode cur :=
        lineCode_append (by have := four_le_of_isFinalLine hFinal; omega) _
      have hDrop : cur.length + 1 - cur.length = 1 := by omega
      rw [← Nat.add_assoc, ← hPos] at hCut
      rw [List.nil_append, listen, if_neg (by simp), if_pos ⟨hCut, hHere⟩, hCode, hDrop,
        ← Nat.add_assoc, ← hPos, List.append_nil]
      rfl
  | cons c t ih =>
      simp only [List.mem_cons, not_or] at hPlain
      rw [List.cons_append, listen, if_neg fun h => hPlain.2.1 h.1.symm]
      by_cases hHere : o = cur.length + 1
      · subst hHere
        have hLine : isFinalLine (cur ++ [c]) = true :=
          isFinalLine_of_append (b := t) (by simpa using hFinal) (by simpa using hLong)
        have hCode : lineCode (cur ++ c :: t) = lineCode (cur ++ [c]) := by
          rw [← List.singleton_append, ← List.append_assoc]
          exact lineCode_append (by simp; omega) t
        rw [← Nat.add_assoc, ← hPos] at hCut
        rw [if_pos ⟨hCut, hLine⟩, hCode, ← Nat.add_assoc, ← hPos]
        simp
      · have hNot : pos + 1 ∉ ends ∨ isFinalLine (cur ++ [c]) = false := by
          by_cases hShort : 4 ≤ cur.length + 1
          · rw [hPos, Nat.add_assoc]
            exact .inl (hFirst _ hShort (by omega))
          · apply Or.inr
            by_contra hFour
            have hLe := four_le_of_isFinalLine (by simpa using hFour)
            simp at hLe
            omega
        rw [if_neg (by rintro ⟨hMem, hLine⟩; rcases hNot with h | h; exacts [h hMem, by simp [hLine] at h]),
          ih _ (by simp [hPos, Nat.add_assoc]) ⟨hPlain.1.2, hPlain.2.2⟩ (by simpa using hFinal)
            (by simp; omega) (by simpa using hInside)]
        have hDrop : o - cur.length = o - (cur ++ [c]).length + 1 := by
          simp
          omega
        rw [hDrop, List.drop_succ_cons]
        simp

end lines

namespace SmtpReply

variable {r : SmtpReply} {l : List Char}

theorem plain_digits (r : SmtpReply) : '\r' ∉ r.digits ∧ '\n' ∉ r.digits := by
  constructor
  · intro hMem
    exact absurd (r.three.2 _ hMem) (by decide)
  · intro hMem
    exact absurd (r.three.2 _ hMem) (by decide)

/-- A line of a reply has no line break inside. -/
theorem plain_finalLine (r : SmtpReply) : '\r' ∉ r.finalLine ∧ '\n' ∉ r.finalLine := by
  have hDigits := r.plain_digits
  have hText := r.plain r.text (by simp)
  simp [finalLine, hDigits, hText]

theorem plain_continued (h : l ∈ r.continued) : '\r' ∉ l ∧ '\n' ∉ l := by
  obtain ⟨t, hMem, rfl⟩ := List.mem_map.mp h
  have hDigits := r.plain_digits
  have hText := r.plain t (List.mem_cons_of_mem _ hMem)
  simp [hDigits, hText]

/-- The character behind the code tells whether a line is the last of its reply. -/
theorem isFinalLine_digits (r : SmtpReply) (c : Char) (t : List Char) :
    isFinalLine (r.digits ++ c :: t) = decide (c = ' ') := by
  obtain ⟨hLength, hDigits⟩ := r.three
  match hThree : r.digits, hLength with
  | [x, y, z], _ =>
      rw [hThree] at hDigits
      simp only [List.cons_append, List.nil_append]
      rw [isFinalLine_cons, hDigits x (by simp), hDigits y (by simp), hDigits z (by simp)]
      simp

theorem isFinalLine_finalLine (r : SmtpReply) : isFinalLine r.finalLine = true := by
  simp [finalLine, isFinalLine_digits]

/-- A continuation line has a hyphen after its code. -/
theorem isFinalLine_continued (h : l ∈ r.continued) : isFinalLine l = false := by
  obtain ⟨t, -, rfl⟩ := List.mem_map.mp h
  simp [isFinalLine_digits]

/-- The final line bears the code of the reply. -/
theorem lineCode_finalLine (r : SmtpReply) : lineCode r.finalLine = r.code := by
  have hTake : r.finalLine.take 3 = r.digits := by
    rw [finalLine, ← r.three.1, List.take_left]
  rw [lineCode, hTake, code]

/-- A reply on the wire: its continued lines, then the final one. -/
theorem wire_eq (r : SmtpReply) (rest : List Char) : r.wire ++ rest =
    r.continued.flatMap (· ++ ['\r', '\n']) ++ (r.finalLine ++ '\r' :: '\n' :: rest) := by
  simp [wire]

theorem length_wire (r : SmtpReply) : r.wire.length = r.finalAt + r.finalLine.length + 2 := by
  simp [wire, finalAt]
  omega

end SmtpReply

section replies

variable {ends : List Nat} {place pos : Nat} {cur text rest : List Char} {r : SmtpReply}

/-- Lines that are not final are passed over. -/
theorem listen_lines {ls : List (List Char)}
    (hLines : ∀ l ∈ ls, ('\r' ∉ l ∧ '\n' ∉ l) ∧ isFinalLine l = false) :
    listen ends place place [] (ls.flatMap (· ++ ['\r', '\n']) ++ rest) =
      listen ends (place + (ls.flatMap (· ++ ['\r', '\n'])).length)
        (place + (ls.flatMap (· ++ ['\r', '\n'])).length) [] rest := by
  induction ls generalizing place with
  | nil => rfl
  | cons l ls ih =>
      obtain ⟨hPlain, hQuiet⟩ := hLines l (by simp)
      have hFirst : (l :: ls).flatMap (· ++ ['\r', '\n']) ++ rest =
          l ++ '\r' :: '\n' :: (ls.flatMap (· ++ ['\r', '\n']) ++ rest) := by simp
      rw [hFirst, listen_quiet [] hPlain hQuiet, ih fun l' hMem => hLines l' (List.mem_cons_of_mem _ hMem)]
      simp only [List.flatMap_cons, List.length_append, List.length_cons, List.length_nil]
      rw [show place + l.length + 2 + (ls.flatMap (· ++ ['\r', '\n'])).length =
        place + (l.length + (0 + 1 + 1) + (ls.flatMap (· ++ ['\r', '\n'])).length) by omega]

/-- The continued lines of a reply raise no event. -/
theorem listen_continued : listen ends place place [] (r.wire ++ rest) =
    listen ends (place + r.finalAt) (place + r.finalAt) [] (r.finalLine ++ '\r' :: '\n' :: rest) := by
  rw [r.wire_eq, listen_lines fun l hMem => ⟨SmtpReply.plain_continued hMem,
    SmtpReply.isFinalLine_continued hMem⟩]
  rfl

/-- Behind a stray LF the first line is passed over, which matters to a single-line reply only. -/
theorem listen_stray (hMore : r.more ≠ []) :
    listen ends pos place ['\n'] (r.wire ++ rest) = listen ends place place [] (r.wire ++ rest) := by
  cases hLines : r.continued with
  | nil => exact absurd (List.map_eq_nil_iff.mp hLines) hMore
  | cons l ls =>
      have hMem : l ∈ r.continued := by simp [hLines]
      have hPlain := SmtpReply.plain_continued hMem
      have hQuiet := SmtpReply.isFinalLine_continued hMem
      have hFirst : r.wire ++ rest = l ++ '\r' :: '\n' :: (ls.flatMap (· ++ ['\r', '\n']) ++
          (r.finalLine ++ '\r' :: '\n' :: rest)) := by
        rw [r.wire_eq, hLines]
        simp
      rw [hFirst, listen_quiet ['\n'] hPlain (isFinalLine_stray l),
        listen_quiet [] hPlain hQuiet]

/-- Events are told at places that are still ahead. -/
theorem listen_place (hPos : place ≤ pos) : ∀ x ∈ listen ends place pos cur text, place ≤ x.1 := by
  induction text generalizing place pos cur with
  | nil => simp [listen]
  | cons c text ih =>
      have hNext : ∀ x ∈ listen ends (pos + 1) (pos + 1) [] text, place ≤ x.1 := fun x hMem =>
        (hPos.trans (Nat.le_succ pos)).trans (ih (Nat.le_refl _) x hMem)
      intro x hMem
      rw [listen] at hMem
      split at hMem
      · rcases List.mem_append.mp hMem with hLine | hLater
        · split at hLine
          · rw [List.mem_singleton.mp hLine]
          · cases hLine
        · exact hNext x hLater
      · split at hMem
        · rcases List.mem_cons.mp hMem with rfl | hLater
          · exact Nat.le_refl _
          · exact hNext x hLater
        · exact ih (hPos.trans (Nat.le_succ pos)) x hMem

theorem replyPlaces_place {replies : List SmtpReply} : ∀ x ∈ replyPlaces place replies, place ≤ x.1 := by
  induction replies generalizing place with
  | nil => simp [replyPlaces]
  | cons r replies ih =>
      intro x hMem
      rcases List.mem_cons.mp hMem with rfl | hLater
      · exact Nat.le_add_right _ _
      · exact (Nat.le_add_right _ _).trans (ih x hLater)

/-- The first chunk boundary at which a line can be taken for final. -/
theorem firstCut_eq_some {line : List Char} {o : Nat} (h : firstCut ends place line = some o)
    (hLong : 4 ≤ line.length) :
    4 ≤ o ∧ o ≤ line.length + 1 ∧ place + o ∈ ends ∧ ∀ o', 4 ≤ o' → o' < o → place + o' ∉ ends := by
  obtain ⟨hCut, hMem, hFirst⟩ := List.find?_range'_eq_some.mp h
  have hRange := List.mem_range'_1.mp hMem
  exact ⟨hRange.1, by omega, of_decide_eq_true hCut, fun o' hFour hLt => by simpa using hFirst o' hFour hLt⟩

/-- No chunk ends inside the line once four of its characters are in. -/
theorem firstCut_eq_none {line : List Char} (h : firstCut ends place line = none) :
    ∀ o, 4 ≤ o → o ≤ line.length + 1 → place + o ∉ ends := by
  intro o hFour hLe
  have hNot := List.find?_range'_eq_none.mp h o hFour (by omega)
  simpa using hNot

/-- A final line is always read, whole or up to the first cut. -/
theorem listen_final {line : List Char} (hPlain : '\r' ∉ line ∧ '\n' ∉ line)
    (hFinal : isFinalLine line = true) :
    listen ends place place [] (line ++ '\r' :: '\n' :: rest) = (place, lineCode line) ::
      match firstCut ends place line with
      | none => listen ends (place + line.length + 2) (place + line.length + 2) [] rest
      | some o => listen ends (place + o) (place + o) [] ((line ++ '\r' :: '\n' :: rest).drop o) := by
  cases hCut : firstCut ends place line with
  | none =>
      have hUncut := firstCut_eq_none hCut
      exact listen_uncut [] (by simp) hPlain hFinal fun o hLong _ hLe => hUncut o hLong hLe
  | some o =>
      obtain ⟨hLong, hInside, hMem, hFirst⟩ := firstCut_eq_some hCut (four_le_of_isFinalLine hFinal)
      exact listen_cut [] (by simp) hPlain hFinal (by simp; omega) hLong hInside hMem hFirst

/-- Behind the place at which the next reply should be read it is missed. -/
theorem listen_ne {replies : List SmtpReply} {x : Nat × Nat} (hBefore : x.1 < place) (more : List (Nat × Nat)) :
    x :: more ≠ replyPlaces place replies := by
  intro hEq
  have hMem : x ∈ replyPlaces place replies := hEq ▸ List.mem_cons_self ..
  exact absurd (replyPlaces_place x hMem) (by omega)

/-- What follows a stray LF: only a single-line reply is lost. -/
theorem listen_stray_iff {replies : List SmtpReply}
    (hClean : listen ends place place [] (replies.flatMap SmtpReply.wire) = replyPlaces place replies ↔
      ReadsWell ends place replies = true) :
    listen ends pos place ['\n'] (replies.flatMap SmtpReply.wire) = replyPlaces place replies ↔
      (replies.head?.all fun r => !r.more.isEmpty) = true ∧ ReadsWell ends place replies = true := by
  cases replies with
  | nil => simp [listen, replyPlaces, ReadsWell]
  | cons next replies =>
      rw [List.head?_cons, Option.all_some]
      cases hMore : next.more with
      | cons t more =>
          rw [List.flatMap_cons] at hClean ⊢
          rw [listen_stray (by simp [hMore]), hClean]
          simp
      | nil =>
          have hNone : next.continued = [] := by simp [SmtpReply.continued, hMore]
          have hAt : next.finalAt = 0 := by simp [SmtpReply.finalAt, hNone]
          rw [List.flatMap_cons, next.wire_eq, hNone, List.flatMap_nil, List.nil_append,
            listen_quiet ['\n'] next.plain_finalLine (isFinalLine_stray _)]
          refine iff_of_false (fun hEq => ?_) (by simp)
          have hMem : (place + next.finalAt, next.code) ∈ listen ends (place + next.finalLine.length + 2)
              (place + next.finalLine.length + 2) [] (replies.flatMap SmtpReply.wire) := by
            rw [hEq]
            exact List.mem_cons_self ..
          have hLe := listen_place (Nat.le_refl _) _ hMem
          simp only [hAt] at hLe
          omega

/-- By induction on the replies. -/
theorem listen_eq_iff {replies : List SmtpReply} :
    listen ends place place [] (replies.flatMap SmtpReply.wire) = replyPlaces place replies ↔
      ReadsWell ends place replies = true := by
  induction replies generalizing place with
  | nil => simp [listen, replyPlaces, ReadsWell]
  | cons r replies ih =>
      have hFinal := r.isFinalLine_finalLine
      have hEnd : place + r.finalAt + r.finalLine.length + 2 = place + r.wire.length := by
        rw [r.length_wire]
        omega
      rw [List.flatMap_cons, listen_continued, replyPlaces, ReadsWell, Bool.and_eq_true,
        listen_final r.plain_finalLine hFinal, r.lineCode_finalLine, List.cons_inj_right]
      cases hCut : firstCut ends (place + r.finalAt) r.finalLine with
      | none => simp [hEnd, ih]
      | some o =>
          obtain ⟨hLong, hInside, -, -⟩ := firstCut_eq_some hCut (four_le_of_isFinalLine hFinal)
          simp only [Option.all_some, harmless]
          split
          · next hLe =>
              have hPlain := r.plain_finalLine
              have hRest : '\r' ∉ r.finalLine.drop o ∧ '\n' ∉ r.finalLine.drop o :=
                ⟨fun h => hPlain.1 (List.mem_of_mem_drop h), fun h => hPlain.2 (List.mem_of_mem_drop h)⟩
              have hNext : place + r.finalAt + o + (r.finalLine.drop o).length + 2 = place + r.wire.length := by
                simp only [List.length_drop]
                omega
              rw [List.drop_append_of_le_length hLe]
              cases hAgain : isFinalLine (r.finalLine.drop o) with
              | false =>
                  rw [listen_quiet [] hRest hAgain, hNext, ih]
                  simp
              | true =>
                  rw [listen_final hRest hAgain]
                  exact iff_of_false (listen_ne (by simp only; omega) _) (by simp)
          · have hO : o = r.finalLine.length + 1 := by omega
            have hNext : place + r.finalAt + o + 1 = place + r.wire.length := by omega
            have hDrop : (r.finalLine ++ '\r' :: '\n' :: replies.flatMap SmtpReply.wire).drop o =
                '\n' :: replies.flatMap SmtpReply.wire := by
              rw [hO, ← List.drop_drop]
              simp
            have hStray : ¬isFinalLine ([] ++ ['\n']) = true := Bool.false_ne_true
            rw [hDrop, listen, if_neg (by simp), if_neg fun h => hStray h.2, hNext]
            exact listen_stray_iff ih

/-- One data event with the whole stream cuts into no line. -/
theorem readsWell_whole {replies : List SmtpReply} {n : Nat}
    (hLe : place + (replies.flatMap SmtpReply.wire).length ≤ n) : ReadsWell [n] place replies = true := by
  induction replies generalizing place with
  | nil => rfl
  | cons r replies ih =>
      rw [List.flatMap_cons, List.length_append] at hLe
      have hNone : firstCut [n] (place + r.finalAt) r.finalLine = none := by
        apply List.find?_range'_eq_none.mpr
        intro o hFour hLt
        have hLong := four_le_of_isFinalLine r.isFinalLine_finalLine
        have hLength := r.length_wire
        simp only [List.mem_singleton, Bool.not_eq_true', decide_eq_false_iff_not]
        omega
      rw [ReadsWell, hNone, ih (by omega)]
      rfl

end replies

/-- A read leaves less to read, or it waits. -/
theorem SmtpSession.read_shorter (s : SmtpSession) : (s.step .read).conn.waiter = true ∨
    (s.step .read).conn.buffer.length < s.conn.buffer.length := by
  show (s.resolve s.conn.buffer).conn.waiter = true ∨
    (s.resolve s.conn.buffer).conn.buffer.length < s.conn.buffer.length
  cases hFirst : (lines s.conn.buffer).findIdx? isFinalLine with
  | none => exact .inl (by simp [resolve, SmtpConn.tryResolve, hFirst])
  | some i =>
      apply Or.inr
      simp only [resolve, SmtpConn.tryResolve, hFirst, List.length_drop]
      have hSome : s.conn.buffer ≠ [] := by
        intro hNil
        rw [hNil] at hFirst
        cases hFirst
      have hPos := List.length_pos_iff.mpr hSome
      omega

/-- Any data events can come while a read is pending for each reply in turn. -/
theorem SmtpSession.exists_inTurn (chunks : List (List Char)) (s : SmtpSession) :
    ∃ events, s.InTurn events ∧ SmtpEvent.chunks events = chunks := by
  cases hWaits : s.conn.waiter with
  | true =>
      cases chunks with
      | nil => exact ⟨[], hWaits, rfl⟩
      | cons d rest =>
          obtain ⟨events, hTurn, hChunks⟩ := exists_inTurn rest (s.step (.data d))
          exact ⟨.data d :: events, ⟨hWaits, hTurn⟩, congrArg (d :: ·) hChunks⟩
  | false =>
      have hLess := s.read_shorter
      obtain ⟨events, hTurn, hChunks⟩ := exists_inTurn chunks (s.step .read)
      exact ⟨.read :: events, ⟨hWaits, hTurn⟩, hChunks⟩
termination_by (chunks.length, if s.conn.waiter then 0 else s.conn.buffer.length + 1)
decreasing_by
  · apply Prod.Lex.right
    rcases hLess with hDone | hLess
    · simp [hDone, hWaits]
    · simp only [hWaits, Bool.false_eq_true, if_false]
      split <;> omega
  · exact Prod.Lex.left _ _ (by simp)

/-- The replies that are read when the stream arrives in pieces. -/
theorem places_of_inTurn {replies : List SmtpReply} {events : List SmtpEvent}
    (hTurn : SmtpSession.start.InTurn events)
    (hStream : (SmtpEvent.chunks events).flatten = replies.flatMap SmtpReply.wire) :
    (SmtpSession.start.run events).places = replyPlaces 0 replies ↔
      ReadsWell (dataEnds 0 (SmtpEvent.chunks events)) 0 replies = true := by
  have hRun := SmtpSession.run_reads hTurn fun hWaits => by cases hWaits
  have hHeard := heard_eq_listen (dataEnds 0 (SmtpEvent.chunks events)) 0 0
    [] (SmtpEvent.chunks events) rfl rfl fun _ _ => Iff.rfl
  have hStart : (SmtpSession.start.run events).places = heard (0, []) (SmtpEvent.chunks events) := hRun
  rw [hStart, hHeard, hStream, listen_eq_iff]

/-- Split into data events in any way, a stream of replies is read as when it arrives at once
exactly if the first cut into each final line does no harm. -/
theorem read_in_pieces_iff {replies : List SmtpReply} {events whole : List SmtpEvent}
    (hTurn : SmtpSession.start.InTurn events)
    (hStream : (SmtpEvent.chunks events).flatten = replies.flatMap SmtpReply.wire)
    (hWholeTurn : SmtpSession.start.InTurn whole)
    (hWhole : SmtpEvent.chunks whole = [replies.flatMap SmtpReply.wire]) :
    (SmtpSession.start.run whole).places = replyPlaces 0 replies ∧
      ((SmtpSession.start.run events).places = (SmtpSession.start.run whole).places ↔
        ReadsWell (dataEnds 0 (SmtpEvent.chunks events)) 0 replies = true) := by
  have hAll : (SmtpSession.start.run whole).places = replyPlaces 0 replies := by
    rw [places_of_inTurn hWholeTurn (by simp [hWhole]), hWhole]
    exact readsWell_whole (by simp)
  exact ⟨hAll, hAll ▸ places_of_inTurn hTurn hStream⟩

namespace Sample

/-- "250 OK", then "354 go". -/
def accepted : SmtpReply where
  digits := ['2', '5', '0']
  more := []
  text := ['O', 'K']
  three := by simp
  plain := by simp

def goAhead : SmtpReply where
  digits := ['3', '5', '4']
  more := []
  text := ['g', 'o']
  three := by simp
  plain := by simp

def atOnce : List SmtpEvent :=
  [.read, .data (accepted.wire ++ goAhead.wire), .read, .read]

/-- The first data event ends behind `n` characters. -/
def inTwo (n : Nat) : List SmtpEvent :=
  [.read, .data ((accepted.wire ++ goAhead.wire).take n), .read,
    .data ((accepted.wire ++ goAhead.wire).drop n)]

end Sample

theorem read_in_pieces_sample :
    (SmtpSession.start.run (Sample.inTwo 5 ++ [.read])).places = [(0, 250), (8, 354)] := by
  have hBoth := @read_in_pieces_iff [Sample.accepted, Sample.goAhead]
    (Sample.inTwo 5 ++ [.read]) Sample.atOnce (by decide) (by decide) (by decide)
    (by decide)
  exact (hBoth.2.mpr (by decide)).trans (hBoth.1.trans (by decide))

/-- A data event that ends between CR and LF hides the single-line reply that comes next. -/
theorem reply_lost : SmtpSession.start.InTurn (Sample.inTwo 7) ∧
    SmtpSession.start.InTurn Sample.atOnce ∧
    (SmtpEvent.chunks (Sample.inTwo 7)).flatten =
      [Sample.accepted, Sample.goAhead].flatMap SmtpReply.wire ∧
    SmtpEvent.chunks Sample.atOnce = [[Sample.accepted, Sample.goAhead].flatMap SmtpReply.wire] ∧
    (SmtpSession.start.run (Sample.inTwo 7)).places = [(0, 250)] ∧
    (SmtpSession.start.run Sample.atOnce).places = [(0, 250), (8, 354)] := by
  decide

end VpnPayment
