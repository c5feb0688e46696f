import VpnPayment.Collections.EncodedWord
import VpnPayment.Notifications.MailServer

/-! A reader of multipart messages finds in a built message what went into it. -/
namespace VpnPayment

open Qr (utf8Bytes utf8Chars utf8Chars_flatMap)

/-- The character sets that a reader knows. UTF-8 is among them, in capitals or not. -/
structure Charsets where
  chars : List Char → Option (List UInt8 → List Char)
  utf8 : ∀ name, name.map Char.toLower = "utf-8".toList → chars name = some utf8Chars

/-- A part of a message, decoded. -/
structure MimePart where
  contentType : List Char
  body : List Char
deriving DecidableEq

structure ReadMail where
  from' : List Char
  to' : List Char
  subject : List Char
  parts : List MimePart
deriving DecidableEq

/-- The lines before the first empty one, and the lines behind it. -/
def headerBlock : List (List Char) → List (List Char) × List (List Char)
  | [] => ([], [])
  | [] :: rest => ([], rest)
  | l :: rest => (l :: (headerBlock rest).1, (headerBlock rest).2)

def headerValue (name : List Char) (headers : List (List Char)) : Option (List Char) :=
  headers.findSome? fun l =>
    if (name ++ ": ".toList).isPrefixOf l then some (l.drop (name.length + 2)) else none

/-- The boundary that a content type names. -/
def boundaryOf (contentType : List Char) : Option (List Char) :=
  let lead := "multipart/alternative; boundary=\"".toList
  if lead.isPrefixOf contentType then
    some ((contentType.drop lead.length).takeWhile (· ≠ '"'))
  else none

/-- The lines between boundary lines. A line that begins with the boundary is one, and the
last one goes on with two dashes. -/
def partsOf (boundary : List Char) : Option (List (List Char)) → List (List Char) →
    Option (List (List (List Char)))
  | _, [] => none
  | cur, l :: rest =>
      if ("--".toList ++ boundary).isPrefixOf l then
        if "--".toList.isPrefixOf (l.drop (boundary.length + 2)) then some cur.toList
        else (partsOf boundary (some []) rest).map (cur.toList ++ ·)
      else partsOf boundary (cur.map (· ++ [l])) rest

/-- The character set that a content type names. -/
def charsetOf (contentType : List Char) : Option (List Char) :=
  match contentType.splitOn ';' with
  | [_, param] =>
      if " charset=".toList.isPrefixOf param then some (param.drop " charset=".length) else none
  | _ => none

/-- Line ends are not part of a base64 text. -/
def readPart (charsets : Charsets) (ls : List (List Char)) : Option MimePart := do
  let (headers, body) := headerBlock ls
  let contentType ← headerValue "Content-Type".toList headers
  let encoding ← headerValue "Content-Transfer-Encoding".toList headers
  let chars ← (charsetOf contentType).bind charsets.chars
  if encoding = "base64".toList then
    let bytes ← Base64.decode body.flatten
    return ⟨contentType, chars bytes⟩
  else none

/-- The subject is unstructured text, in which encoded words are decoded. -/
def readMail (charsets : Charsets) (ls : List (List Char)) : Option ReadMail := do
  let (headers, body) := headerBlock ls
  let contentType ← headerValue "Content-Type".toList headers
  let boundary ← boundaryOf contentType
  let parts ← partsOf boundary none body
  let parts ← parts.mapM (readPart charsets)
  let from' ← headerValue "From".toList headers
  let to' ← headerValue "To".toList headers
  let subject ← headerValue "Subject".toList headers
  return ⟨from', to', EncodedWord.read charsets.chars subject, parts⟩

section building

/-- The lines of an encoded body. -/
def bodyLines (b64 : List Char) : List (List Char) :=
  if b64 = [] then [[]] else pieces76 b64

/-- Cutting loses no character. -/
theorem flatten_piecesFrom (cur rest : List Char) : (piecesFrom cur rest).flatten = cur ++ rest := by
  induction rest generalizing cur with
  | nil =>
      rw [piecesFrom]
      split
      · next h => simp [h]
      · simp
  | cons c rest ih =>
      rw [piecesFrom]
      split
      · rw [List.flatten_cons, ih, List.singleton_append]
      · rw [ih, List.append_assoc, List.singleton_append]

theorem flatten_pieces76 (b64 : List Char) : (pieces76 b64).flatten = b64 :=
  flatten_piecesFrom [] b64

theorem pieces76_ne_nil {b64 : List Char} (h : b64 ≠ []) : pieces76 b64 ≠ [] := by
  intro hNil
  apply h
  rw [← flatten_pieces76 b64, hNil, List.flatten_nil]

/-- The lines of a body are its base64 text. -/
theorem flatten_bodyLines (b64 : List Char) : (bodyLines b64).flatten = b64 := by
  unfold bodyLines
  split
  · next h => rw [h]; rfl
  · exact flatten_pieces76 b64

theorem mem_of_mem_bodyLines {b64 l : List Char} {c : Char} (hLine : l ∈ bodyLines b64) (hc : c ∈ l) :
    c ∈ b64 := by
  rw [← flatten_bodyLines b64]
  exact List.mem_flatten.mpr ⟨l, hLine, hc⟩

theorem bodyLines_ne_nil (b64 : List Char) : bodyLines b64 ≠ [] := by
  unfold bodyLines
  split
  · exact List.cons_ne_nil _ _
  · next h => exact pieces76_ne_nil h

/-- `wrap76` joins the lines of the body. -/
theorem wrap76_eq (b64 : List Char) : wrap76 b64 = joinCrlf (bodyLines b64) := by
  unfold wrap76 bodyLines
  split
  · next h => simp [h, pieces76, piecesFrom, joinCrlf]
  · rfl

def partHeaders (contentType : String) (boundary : List Char) : List (List Char) :=
  ["--".toList ++ boundary,
    "Content-Type: ".toList ++ contentType.toList ++ "; charset=UTF-8".toList,
    "Content-Transfer-Encoding: base64".toList,
    []]

def partLines (contentType : String) (body : String) (boundary : List Char) : List (List Char) :=
  partHeaders contentType boundary ++ bodyLines (Base64.encode (utf8Bytes body))

/-- A part as the lines it consists of. -/
theorem base64Part_eq (contentType body : String) (boundary : List Char) :
    base64Part contentType body boundary = joinCrlf (partLines contentType body boundary) := by
  have hHeaders : partHeaders contentType boundary ≠ [] := List.cons_ne_nil _ _
  rw [partLines, joinCrlf_append hHeaders (bodyLines_ne_nil _), ← wrap76_eq]
  simp [base64Part, partHeaders, joinCrlf]

def messageLines (from' : String) (email : OutgoingEmail) (stamp : MimeStamp) : List (List Char) :=
  mimeHeaders from' email stamp ++ ([[]] ++ (partLines "text/plain" email.text stamp.boundary ++
    (partLines "text/html" email.html stamp.boundary ++
      ["--".toList ++ stamp.boundary ++ "--".toList, []])))

/-- The message as the lines it consists of. -/
theorem buildMimeMessage_eq (from' : String) (email : OutgoingEmail) (stamp : MimeStamp) :
    buildMimeMessage from' email stamp = joinCrlf (messageLines from' email stamp) := by
  have hPart (contentType body : String) : partLines contentType body stamp.boundary ≠ [] :=
    List.cons_ne_nil _ _
  have hHeaders : mimeHeaders from' email stamp ≠ [] := List.cons_ne_nil _ _
  rw [messageLines, joinCrlf_append hHeaders (by simp),
    joinCrlf_append (by simp) (by simp [hPart]), joinCrlf_append (hPart _ _) (by simp),
    joinCrlf_append (hPart _ _) (by simp), ← base64Part_eq, ← base64Part_eq]
  simp [buildMimeMessage, joinCrlf]

end building

section reading

variable {boundary : List Char}

/-- The headers end at the first empty line. -/
theorem headerBlock_append {hs : List (List Char)} (h : ∀ l ∈ hs, l ≠ []) (body : List (List Char)) :
    headerBlock (hs ++ [] :: body) = (hs, body) := by
  induction hs with
  | nil => rfl
  | cons l rest ih =>
      have hRest := ih fun l' hl' => h l' (List.mem_cons_of_mem l hl')
      cases l with
      | nil => exact absurd rfl (h [] List.mem_cons_self)
      | cons c cs =>
          rw [List.cons_append, headerBlock, hRest]
          exact List.cons_ne_nil c cs

/-- A boundary line opens a part. -/
theorem partsOf_open (cur : Option (List (List Char))) (rest : List (List Char)) :
    partsOf boundary cur (("--".toList ++ boundary) :: rest) =
      (partsOf boundary (some []) rest).map (cur.toList ++ ·) := by
  have hPrefix : ("--".toList ++ boundary).isPrefixOf ("--".toList ++ boundary) = true :=
    List.isPrefixOf_iff_prefix.mpr (List.prefix_refl _)
  have hLine : ("--".toList ++ boundary).drop (boundary.length + 2) = [] := by simp
  rw [partsOf, if_pos hPrefix, hLine]
  rfl

/-- The boundary line with two more hyphens closes the last part. -/
theorem partsOf_close (cur : Option (List (List Char))) (rest : List (List Char)) :
    partsOf boundary cur (("--".toList ++ boundary ++ "--".toList) :: rest) = some cur.toList := by
  have hPrefix : ("--".toList ++ boundary).isPrefixOf ("--".toList ++ boundary ++ "--".toList) = true :=
    List.isPrefixOf_iff_prefix.mpr (List.prefix_append _ _)
  have hLength : ("--".toList ++ boundary).length = boundary.length + 2 := by simp
  have hLine : ("--".toList ++ boundary ++ "--".toList).drop (boundary.length + 2) = "--".toList :=
    List.drop_left' hLength
  rw [partsOf, if_pos hPrefix, hLine]
  rfl

/-- Lines that do not begin with a dash belong to the part. -/
theorem partsOf_append {ls rest : List (List Char)} (h : ∀ l ∈ ls, l.head? ≠ some '-')
    (cur : List (List Char)) :
    partsOf boundary (some cur) (ls ++ rest) = partsOf boundary (some (cur ++ ls)) rest := by
  induction ls generalizing cur with
  | nil => simp
  | cons l more ih =>
      have hLine : ¬ ("--".toList ++ boundary).isPrefixOf l = true := by
        intro hPrefix
        obtain ⟨tail, hTail⟩ := List.isPrefixOf_iff_prefix.mp hPrefix
        exact h l List.mem_cons_self (by rw [← hTail]; rfl)
      rw [List.cons_append, partsOf, if_neg hLine, Option.map_some,
        ih fun l' hl' => h l' (List.mem_cons_of_mem l hl'), List.append_assoc, List.singleton_append]

/-- The charset parameter of a part is read from its content type. -/
theorem charsetOf_utf8 {contentType : String} (hType : ';' ∉ contentType.toList) :
    charsetOf (contentType.toList ++ "; charset=UTF-8".toList) = some "UTF-8".toList := by
  have hSplit : (contentType.toList ++ "; charset=UTF-8".toList).splitOn ';' =
      [contentType.toList, " charset=UTF-8".toList] := by
    rw [show "; charset=UTF-8".toList = ';' :: " charset=UTF-8".toList from rfl,
      List.splitOn_append_cons_self_of_not_mem hType, List.splitOn_eq_singleton (by decide)]
  rw [charsetOf, hSplit]
  rfl

theorem Charsets.utf8_capital (charsets : Charsets) :
    charsets.chars "UTF-8".toList = some utf8Chars :=
  charsets.utf8 _ (by decide)

variable {charsets : Charsets}

/-- A part is read back: its base64 lines are its text in UTF-8. -/
theorem readPart_partLines (contentType body : String) (hType : ';' ∉ contentType.toList) :
    readPart charsets ((partLines contentType body boundary).tail) =
      some ⟨contentType.toList ++ "; charset=UTF-8".toList, body.toList⟩ := by
  have hBlock : headerBlock ((partLines contentType body boundary).tail) =
      ([("Content-Type: ".toList ++ contentType.toList ++ "; charset=UTF-8".toList),
        "Content-Transfer-Encoding: base64".toList], bodyLines (Base64.encode (utf8Bytes body))) := by
    apply @headerBlock_append [_, _]
    intro l hl
    simp only [List.mem_cons, List.not_mem_nil, or_false] at hl
    rcases hl with rfl | rfl
    · intro hNil
      cases hNil
    · intro hNil
      cases hNil
  have hContent : headerValue "Content-Type".toList
      [("Content-Type: ".toList ++ contentType.toList ++ "; charset=UTF-8".toList),
        "Content-Transfer-Encoding: base64".toList] =
      some (contentType.toList ++ "; charset=UTF-8".toList) := rfl
  have hEncoding : headerValue "Content-Transfer-Encoding".toList
      [("Content-Type: ".toList ++ contentType.toList ++ "; charset=UTF-8".toList),
        "Content-Transfer-Encoding: base64".toList] = some "base64".toList := rfl
  rw [readPart, hBlock]
  simp only [hContent, hEncoding, charsetOf_utf8 hType, charsets.utf8_capital, flatten_bodyLines,
    Base64.decode_encode, Option.bind_eq_bind, Option.bind_some, if_true]
  rw [utf8Bytes, utf8Chars_flatMap]
  rfl

def isAscii (subject : String) : Bool :=
  subject.toList.all fun c => c.toNat ≤ 0x7F

/-- An ASCII subject is sent as it is: it must not go over its line, and none of its words may have
the form of an encoded word. Any other subject is sent as one encoded word, which has room for
forty-five bytes. -/
structure ReadableSubject (subject : String) : Prop where
  line : isAscii subject = true → OneLine subject.toList
  plain : isAscii subject = true → ∀ p ∈ EncodedWord.words subject.toList, EncodedWord.parts p.2 = none
  room : isAscii subject = false → (utf8Bytes subject).length ≤ 45

theorem encodeHeaderWord_of_ascii {subject : String} (h : isAscii subject = true) :
    encodeHeaderWord subject = subject.toList :=
  if_pos h

theorem encodeHeaderWord_of_not_ascii {subject : String} (h : isAscii subject = false) :
    encodeHeaderWord subject =
      "=?UTF-8?B?".toList ++ Base64.encode (utf8Bytes subject) ++ "?=".toList :=
  if_neg (by simpa [isAscii] using h)

/-- An encoded subject is one word. -/
theorem not_blank_encodeHeaderWord {subject : String} (h : isAscii subject = false) {c : Char}
    (hc : c ∈ [' ', '\t']) : c ∉ encodeHeaderWord subject := by
  rw [encodeHeaderWord_of_not_ascii h, List.mem_append, List.mem_append]
  simp only [List.mem_cons, List.not_mem_nil, or_false] at hc
  rintro ((hMem | hMem) | hMem)
  · rcases hc with rfl | rfl <;> exact absurd hMem (by decide)
  · refine Base64.not_isDigit ?_ (Base64.isDigit_encode hMem)
    rcases hc with rfl | rfl <;> decide
  · rcases hc with rfl | rfl <;> exact absurd hMem (by decide)

/-- A reader shows the subject that was sent. -/
theorem read_encodeHeaderWord {subject : String} (h : ReadableSubject subject) :
    EncodedWord.read charsets.chars (encodeHeaderWord subject) = subject.toList := by
  cases hAscii : isAscii subject with
  | true =>
      rw [encodeHeaderWord_of_ascii hAscii]
      exact EncodedWord.read_of_plain (h.plain hAscii)
  | false =>
      have hRoom := h.room hAscii
      have hLength := Base64.length_encode (utf8Bytes subject)
      apply EncodedWord.read_word
        ⟨not_blank_encodeHeaderWord hAscii (by simp), not_blank_encodeHeaderWord hAscii (by simp)⟩
      have hDecode := @EncodedWord.decode_base64 _ _ (utf8Bytes subject) _ charsets.utf8_capital
        (by decide) (show 5 + _ ≤ 68 by omega)
      rw [encodeHeaderWord_of_not_ascii hAscii]
      rwa [utf8Bytes, utf8Chars_flatMap, ← utf8Bytes] at hDecode

/-- An encoded subject stays on its header line. -/
theorem oneLine_encodeHeaderWord {subject : String} (h : ReadableSubject subject) :
    OneLine (encodeHeaderWord subject) := by
  cases hAscii : isAscii subject with
  | true =>
      rw [encodeHeaderWord_of_ascii hAscii]
      exact h.line hAscii
  | false =>
      rw [encodeHeaderWord_of_not_ascii hAscii]
      exact oneLine_append.mpr ⟨oneLine_append.mpr ⟨by decide, oneLine_encode _⟩, by decide⟩

theorem mem_of_all {cs ds : List Char} (h : (cs.all fun c => c ∈ ds) = true) : ∀ c ∈ cs, c ∈ ds :=
  fun c hc => of_decide_eq_true (List.all_eq_true.mp h c hc)

/-- Boundaries are made of the prefix and hexadecimal digits. -/
theorem MimeStamp.mem_boundary {stamp : MimeStamp} {c : Char} (h : c ∈ stamp.boundary) :
    c ∈ "bnd_0123456789abcdef".toList := by
  rw [MimeStamp.boundary, List.append_assoc, List.mem_append] at h
  rcases h with h | h
  · exact mem_of_all (by decide) c h
  · exact mem_of_all (by decide) c (stamp.hex c h)

theorem MimeStamp.oneLine_boundary (stamp : MimeStamp) : OneLine stamp.boundary := by
  constructor
  · intro h
    exact absurd (stamp.mem_boundary h) (by decide)
  · intro h
    exact absurd (stamp.mem_boundary h) (by decide)

/-- The boundary is read from the content type of the message. -/
theorem boundaryOf_stamp (stamp : MimeStamp) :
    boundaryOf ("multipart/alternative; boundary=\"".toList ++ stamp.boundary ++ "\"".toList) =
      some stamp.boundary := by
  have hPrefix : "multipart/alternative; boundary=\"".toList.isPrefixOf
      ("multipart/alternative; boundary=\"".toList ++ stamp.boundary ++ "\"".toList) = true := by
    rw [List.append_assoc]
    exact List.isPrefixOf_iff_prefix.mpr (List.prefix_append _ _)
  have hQuote : ∀ c ∈ stamp.boundary, decide (c ≠ '"') = true := by
    intro c hc
    apply decide_eq_true
    intro hEq
    rw [hEq] at hc
    exact absurd (stamp.mem_boundary hc) (by decide)
  unfold boundaryOf
  dsimp only
  rw [if_pos hPrefix, List.append_assoc, List.drop_left, List.takeWhile_append_of_pos hQuote]
  simp

theorem oneLine_partLines (contentType : String) (hType : OneLine contentType.toList) (body : String)
    (stamp : MimeStamp) {l : List Char} (h : l ∈ partLines contentType body stamp.boundary) :
    OneLine l := by
  rw [partLines, List.mem_append] at h
  rcases h with h | h
  · simp only [partHeaders, List.mem_cons, List.not_mem_nil, or_false] at h
    rcases h with rfl | rfl | rfl | rfl
    · exact oneLine_append.mpr ⟨by decide, stamp.oneLine_boundary⟩
    · exact oneLine_append.mpr ⟨oneLine_append.mpr ⟨by decide, hType⟩, by decide⟩
    · decide
    · decide
  · have hAll := oneLine_encode (utf8Bytes body)
    constructor
    · intro hMem
      exact hAll.1 (mem_of_mem_bodyLines h hMem)
    · intro hMem
      exact hAll.2 (mem_of_mem_bodyLines h hMem)

variable {from' : String} {email : OutgoingEmail} {stamp : MimeStamp}

/-- No line of the message has a line break inside. -/
theorem oneLine_messageLines (hFrom : OneLine from'.toList) (hTo : OneLine email.to'.toList)
    (hSubject : ReadableSubject email.subject) {l : List Char}
    (h : l ∈ messageLines from' email stamp) : OneLine l := by
  simp only [messageLines, List.mem_append] at h
  rcases h with h | h | h | h | h
  · simp only [mimeHeaders, List.mem_cons, List.not_mem_nil, or_false] at h
    rcases h with rfl | rfl | rfl | rfl | rfl | rfl
    · exact oneLine_append.mpr ⟨by decide, hFrom⟩
    · exact oneLine_append.mpr ⟨by decide, hTo⟩
    · exact oneLine_append.mpr ⟨by decide, oneLine_encodeHeaderWord hSubject⟩
    · exact oneLine_append.mpr ⟨by decide, stamp.line⟩
    · decide
    · exact oneLine_append.mpr ⟨oneLine_append.mpr ⟨by decide, stamp.oneLine_boundary⟩, by decide⟩
  · obtain rfl := List.mem_singleton.mp h
    decide
  · exact oneLine_partLines "text/plain" (by decide) email.text stamp h
  · exact oneLine_partLines "text/html" (by decide) email.html stamp h
  · simp only [List.mem_cons, List.not_mem_nil, or_false] at h
    rcases h with rfl | rfl
    · exact oneLine_append.mpr ⟨oneLine_append.mpr ⟨by decide, stamp.oneLine_boundary⟩, by decide⟩
    · decide

/-- The message splits into the lines it was joined from. -/
theorem lines_buildMimeMessage (hFrom : OneLine from'.toList) (hTo : OneLine email.to'.toList)
    (hSubject : ReadableSubject email.subject) :
    Crlf.lines (buildMimeMessage from' email stamp) = messageLines from' email stamp := by
  rw [buildMimeMessage_eq]
  apply Crlf.lines_intercalate (List.cons_ne_nil _ _)
  intro l hl
  exact (oneLine_messageLines hFrom hTo hSubject hl).whole

/-- No line of a part begins with a dash, except for its boundary line. -/
theorem head_partLines (contentType body : String) {boundary l : List Char}
    (h : l ∈ (partLines contentType body boundary).tail) : l.head? ≠ some '-' := by
  simp only [partLines, partHeaders, List.cons_append, List.tail_cons, List.mem_cons, List.nil_append] at h
  rcases h with rfl | rfl | rfl | h
  · exact (by decide : some 'C' ≠ some '-')
  · decide
  · decide
  · intro hHead
    have hMem := mem_of_mem_bodyLines h (List.mem_of_head? hHead)
    exact Base64.not_isDigit (by decide) (Base64.isDigit_encode hMem)

/-- The body of the message is the text part and the HTML part. -/
theorem partsOf_messageLines :
    partsOf stamp.boundary none (partLines "text/plain" email.text stamp.boundary ++
      (partLines "text/html" email.html stamp.boundary ++
        ["--".toList ++ stamp.boundary ++ "--".toList, []])) =
      some [(partLines "text/plain" email.text stamp.boundary).tail,
        (partLines "text/html" email.html stamp.boundary).tail] := by
  have hPart (contentType body : String) (rest : List (List Char)) :
      partLines contentType body stamp.boundary ++ rest =
        ("--".toList ++ stamp.boundary) :: ((partLines contentType body stamp.boundary).tail ++ rest) :=
    rfl
  rw [hPart, partsOf_open, partsOf_append fun l hl => head_partLines "text/plain" email.text hl, hPart,
    partsOf_open, partsOf_append fun l hl => head_partLines "text/html" email.html hl, partsOf_close]
  rfl

/-- Sender, recipient, subject and both bodies are read back from a built message, by any reader
that knows UTF-8. -/
theorem mime_message_read_back (hFrom : OneLine from'.toList) (hTo : OneLine email.to'.toList)
    (hSubject : ReadableSubject email.subject) :
    readMail charsets (Crlf.lines (buildMimeMessage from' email stamp)) =
      some ⟨from'.toList, email.to'.toList, email.subject.toList,
        [⟨"text/plain; charset=UTF-8".toList, email.text.toList⟩,
          ⟨"text/html; charset=UTF-8".toList, email.html.toList⟩]⟩ := by
  have hSome : ∀ l ∈ mimeHeaders from' email stamp, l ≠ [] := by
    intro l hl
    simp only [mimeHeaders, List.mem_cons, List.not_mem_nil, or_false] at hl
    rcases hl with rfl | rfl | rfl | rfl | rfl | rfl
    all_goals
      intro hNil
      cases hNil
  have hBlock : headerBlock (messageLines from' email stamp) = (mimeHeaders from' email stamp,
      partLines "text/plain" email.text stamp.boundary ++
        (partLines "text/html" email.html stamp.boundary ++
          ["--".toList ++ stamp.boundary ++ "--".toList, []])) := headerBlock_append hSome _
  have hType : headerValue "Content-Type".toList (mimeHeaders from' email stamp) =
      some ("multipart/alternative; boundary=\"".toList ++ stamp.boundary ++ "\"".toList) := rfl
  have hFromValue : headerValue "From".toList (mimeHeaders from' email stamp) = some from'.toList := rfl
  have hToValue : headerValue "To".toList (mimeHeaders from' email stamp) = some email.to'.toList := rfl
  have hSubjectValue : headerValue "Subject".toList (mimeHeaders from' email stamp) =
      some (encodeHeaderWord email.subject) := rfl
  rw [lines_buildMimeMessage hFrom hTo hSubject, readMail, hBlock]
  simp only [hType, hFromValue, hToValue, hSubjectValue, boundaryOf_stamp, Option.bind_eq_bind,
    Option.bind_some, partsOf_messageLines, List.mapM_cons, List.mapM_nil,
    readPart_partLines "text/plain" _ (by decide), readPart_partLines "text/html" _ (by decide),
    read_encodeHeaderWord hSubject]
  rfl

def sampleStamp : MimeStamp :=
  ⟨"4f".toList, "18c".toList, "Tue, 01 Jan 2030 00:00:00 GMT".toList, mem_of_all (by decide), by decide⟩

/-- A reader that knows UTF-8 only. -/
def sampleCharsets : Charsets where
  chars name := if name.map Char.toLower = "utf-8".toList then some utf8Chars else none
  utf8 _ h := if_pos h

/-- A subject that is not ASCII, and a body that begins with a dot. -/
theorem mime_message_read_back_sample :
    readMail sampleCharsets
        (Crlf.lines (buildMimeMessage "a@b.c" ⟨"d@e.f", "到期", ".", "<p>.</p>"⟩ sampleStamp)) =
      some ⟨"a@b.c".toList, "d@e.f".toList, "到期".toList,
        [⟨"text/plain; charset=UTF-8".toList, ".".toList⟩,
          ⟨"text/html; charset=UTF-8".toList, "<p>.</p>".toList⟩]⟩ :=
  mime_message_read_back (by decide) (by decide)
    ⟨fun h => absurd h (by decide), fun h => absurd h (by decide), fun _ => by decide⟩

end reading

end VpnPayment
