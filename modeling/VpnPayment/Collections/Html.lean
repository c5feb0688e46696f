import Mathlib.Data.List.Basic

/-! Reading HTML: tags, and texts with their character references resolved. -/
namespace Html

inductive Token
  | tag (name : List Char)
  | text (content : List Char)
deriving DecidableEq

/-- The character references, without the `&` that they begin with. -/
def references : List (List Char × Char) :=
  [("amp;".toList, '&'), ("lt;".toList, '<'), ("gt;".toList, '>'), ("quot;".toList, '"')]

/-- A text with its character references resolved. The first `skip` characters belong to
one that was. -/
def resolveFrom (skip : Nat) : List Char → List Char
  | [] => []
  | c :: rest =>
      if skip ≠ 0 then resolveFrom (skip - 1) rest
      else if c = '&' then
        match references.find? fun r => r.1.isPrefixOf rest with
        | some r => r.2 :: resolveFrom r.1.length rest
        | none => c :: resolveFrom 0 rest
      else c :: resolveFrom 0 rest

def resolve (text : List Char) : List Char :=
  resolveFrom 0 text

/-- What stands before a tag, if anything does. -/
def textToken (raw : List Char) : List Token :=
  if raw = [] then [] else [.text (resolve raw)]

mutual

/-- The tokens of a document of which a text has been read. -/
def readText (raw : List Char) : List Char → List Token
  | [] => textToken raw
  | c :: rest => if c = '<' then textToken raw ++ readTag [] rest else readText (raw ++ [c]) rest

/-- The tokens of a document of which a tag has been read. -/
def readTag (name : List Char) : List Char → List Token
  | [] => [.tag name]
  | c :: rest => if c = '>' then .tag name :: readText [] rest else readTag (name ++ [c]) rest

end

def read (html : List Char) : List Token :=
  readText [] html

variable {raw name content rest : List Char}

theorem resolveFrom_skip (skipped rest : List Char) :
    resolveFrom skipped.length (skipped ++ rest) = resolve rest := by
  induction skipped with
  | nil => rfl
  | cons c cs ih => exact ih

/-- A reference in a text. -/
theorem resolve_reference {r : List Char × Char} (hRest : references.find? (fun r => r.1.isPrefixOf rest) = some r)
    (hPrefix : rest = r.1 ++ content) : resolve ('&' :: rest) = r.2 :: resolve content := by
  rw [resolve, resolveFrom, if_neg (by simp), if_pos rfl, hRest]
  dsimp only
  rw [hPrefix, resolveFrom_skip]

theorem resolve_cons {c : Char} (h : c ≠ '&') : resolve (c :: rest) = c :: resolve rest := by
  rw [resolve, resolveFrom, if_neg (by simp), if_neg h]
  rfl

theorem readText_append (h : '<' ∉ content) (rest : List Char) :
    readText raw (content ++ rest) = readText (raw ++ content) rest := by
  induction content generalizing raw with
  | nil => simp
  | cons c cs ih =>
      rw [List.mem_cons, not_or] at h
      rw [List.cons_append, readText, if_neg (Ne.symm h.1), ih h.2, List.append_assoc,
        List.singleton_append]

theorem readTag_append (h : '>' ∉ content) (rest : List Char) :
    readTag name (content ++ rest) = readTag (name ++ content) rest := by
  induction content generalizing name with
  | nil => simp
  | cons c cs ih =>
      rw [List.mem_cons, not_or] at h
      rw [List.cons_append, readTag, if_neg (Ne.symm h.1), ih h.2, List.append_assoc,
        List.singleton_append]

/-- A tag in a document. -/
theorem readText_tag (h : '>' ∉ name) (rest : List Char) :
    readText raw ('<' :: name ++ '>' :: rest) = textToken raw ++ .tag name :: readText [] rest := by
  rw [List.cons_append, readText, if_pos rfl, readTag_append h, readTag, if_pos rfl]
  rfl

end Html
