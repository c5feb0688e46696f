import Mathlib.Data.List.Basic

/-! The lines of a text, which are separated by CRLF. The last one may be unfinished. -/
namespace Crlf

/-- The lines of a text whose first line has begun with `cur`. -/
def linesFrom (cur : List Char) : List Char → List (List Char)
  | [] => [cur]
  | c :: rest =>
      if c = '\n' ∧ cur.getLast? = some '\r' then cur.dropLast :: linesFrom [] rest
      else linesFrom (cur ++ [c]) rest

/-- JavaScript `text.split('\r\n')`. -/
def lines (text : List Char) : List (List Char) :=
  linesFrom [] text

/-- JavaScript `lines.join('\r\n').length`. -/
def joinedLength (ls : List (List Char)) : Nat :=
  (List.intercalate ['\r', '\n'] ls).length

theorem joinedLength_cons (l next : List Char) (more : List (List Char)) :
    joinedLength (l :: next :: more) = l.length + 2 + joinedLength (next :: more) := by
  simp [joinedLength]
  omega

/-- The end of the last line counts when another one begins behind it. -/
theorem joinedLength_concat_nil {ls : List (List Char)} (h : ls ≠ []) :
    joinedLength (ls ++ [[]]) = joinedLength ls + 2 := by
  induction ls with
  | nil => exact absurd rfl h
  | cons l ls ih =>
      cases ls with
      | nil => simp [joinedLength]
      | cons next more =>
          have hMore := ih (List.cons_ne_nil _ _)
          rw [List.cons_append] at hMore
          rw [List.cons_append, List.cons_append, joinedLength_cons, joinedLength_cons, hMore]
          omega

@[simp] theorem linesFrom_nil (cur : List Char) : linesFrom cur [] = [cur] := rfl

theorem linesFrom_ne_nil (cur text : List Char) : linesFrom cur text ≠ [] := by
  induction text generalizing cur with
  | nil => simp
  | cons c rest ih =>
      rw [linesFrom]
      split
      · simp
      · exact ih _

/-- Splitting a text loses nothing. -/
theorem joinedLength_linesFrom (cur text : List Char) :
    joinedLength (linesFrom cur text) = cur.length + text.length := by
  induction text generalizing cur with
  | nil => simp [joinedLength]
  | cons c rest ih =>
      rw [linesFrom]
      split
      · next hEnd =>
          have hRest := ih []
          cases hLines : linesFrom [] rest with
          | nil => exact absurd hLines (linesFrom_ne_nil [] rest)
          | cons next more =>
              have hNonempty : cur ≠ [] := by
                rintro rfl
                simp at hEnd
              have hSome := List.length_pos_iff.mpr hNonempty
              rw [hLines] at hRest
              rw [joinedLength_cons, hRest]
              simp only [List.length_dropLast, List.length_nil, List.length_cons]
              omega
      · rw [ih]
        simp only [List.length_append, List.length_cons, List.length_nil]
        omega

/-- The line that is unfinished. -/
def unfinished (ls : List (List Char)) : List Char :=
  ls.getLastD []

/-- A text that goes on changes its unfinished line only. -/
theorem linesFrom_append (cur a b : List Char) :
    linesFrom cur (a ++ b) =
      (linesFrom cur a).dropLast ++ linesFrom (unfinished (linesFrom cur a)) b := by
  induction a generalizing cur with
  | nil => simp [unfinished]
  | cons c rest ih =>
      rw [List.cons_append, linesFrom, linesFrom]
      split
      · rw [ih, List.dropLast_cons_of_ne_nil (linesFrom_ne_nil [] rest), List.cons_append]
        have hLast : unfinished (cur.dropLast :: linesFrom [] rest) = unfinished (linesFrom [] rest) := by
          unfold unfinished
          cases hRest : linesFrom [] rest with
          | nil => exact absurd hRest (linesFrom_ne_nil [] rest)
          | cons l ls => simp
        rw [hLast]
      · exact ih _

/-- Behind a finished line the text goes on with the next ones. -/
theorem linesFrom_cons {cur text l next : List Char} {more : List (List Char)}
    (h : linesFrom cur text = l :: next :: more) :
    ∃ rest, cur ++ text = l ++ '\r' :: '\n' :: rest ∧ lines rest = next :: more := by
  induction text generalizing cur with
  | nil => simp at h
  | cons c text ih =>
      rw [linesFrom] at h
      split at h
      · next hEnd =>
          obtain ⟨rfl, hCr⟩ := hEnd
          obtain ⟨rfl, hMore⟩ := List.cons.inj h
          refine ⟨text, ?_, hMore⟩
          have hCur : cur.dropLast ++ ['\r'] = cur := List.dropLast_append_getLast? _ hCr
          rw [← List.singleton_append (x := '\r'), ← List.append_assoc, hCur]
      · obtain ⟨rest, hText, hRest⟩ := ih h
        exact ⟨rest, by simpa using hText, hRest⟩

theorem linesFrom_singleton {cur text l : List Char} (h : linesFrom cur text = [l]) :
    l = cur ++ text := by
  induction text generalizing cur with
  | nil => simpa using h.symm
  | cons c text ih =>
      rw [linesFrom] at h
      split at h
      · exact absurd (List.cons.inj h).2 (linesFrom_ne_nil [] text)
      · simpa using ih h

section whole

variable {l a b : List Char}

/-- No line ends inside the text. -/
def Whole (l : List Char) : Prop :=
  lines l = [l]

theorem whole_nil : Whole [] := rfl

theorem Whole.left (h : Whole (a ++ b)) : Whole a := by
  unfold Whole lines at h ⊢
  rw [linesFrom_append] at h
  cases hLines : linesFrom [] a with
  | nil => exact absurd hLines (linesFrom_ne_nil [] a)
  | cons first more =>
      cases more with
      | nil => rw [linesFrom_singleton hLines, List.nil_append]
      | cons next more =>
          have hLength := congrArg List.length h
          have hLast := List.length_pos_iff.mpr
            (linesFrom_ne_nil (unfinished (linesFrom [] a)) b)
          rw [hLines] at hLength hLast
          simp only [List.length_append, List.length_dropLast, List.length_cons, List.length_nil] at hLength
          omega

theorem linesFrom_of_whole (h : Whole a) (b : List Char) : lines (a ++ b) = linesFrom a b := by
  unfold Whole lines at h
  rw [lines, linesFrom_append, h]
  rfl

/-- A line stands before what follows its end. -/
theorem lines_line (h : Whole l) (rest : List Char) :
    lines (l ++ '\r' :: '\n' :: rest) = l :: lines rest := by
  rw [linesFrom_of_whole h, linesFrom, if_neg (by simp), linesFrom, if_pos (by simp)]
  simp [lines]

theorem whole_of_mem_linesFrom {cur text : List Char} (hCur : Whole cur) (h : l ∈ linesFrom cur text) :
    Whole l := by
  induction text generalizing cur with
  | nil =>
      obtain rfl := List.mem_singleton.mp h
      exact hCur
  | cons c rest ih =>
      rw [linesFrom] at h
      split at h
      · next hEnd =>
          have hFirst : cur.dropLast ++ ['\r'] = cur := List.dropLast_append_getLast? _ hEnd.2
          cases h with
          | head =>
              rw [← hFirst] at hCur
              exact hCur.left
          | tail _ h => exact ih whole_nil h
      · next hEnd =>
          apply ih _ h
          show lines (cur ++ [c]) = _
          rw [linesFrom_of_whole hCur, linesFrom, if_neg hEnd, linesFrom_nil]

theorem whole_of_mem {text : List Char} (h : l ∈ lines text) : Whole l :=
  whole_of_mem_linesFrom whole_nil h

theorem linesFrom_head {c : Char} {cur : List Char} (h : c ≠ '\r' ∨ cur ≠ []) (text : List Char) :
    linesFrom (c :: cur) text = (linesFrom cur text).modifyHead (c :: ·) := by
  induction text generalizing cur with
  | nil => rfl
  | cons d rest ih =>
      have hSame : (c :: cur).getLast? = some '\r' ↔ cur.getLast? = some '\r' := by
        cases cur with
        | nil => simpa using h
        | cons x xs => simp
      rw [linesFrom, linesFrom]
      simp only [hSame]
      split
      · next hEnd =>
          have hSome : cur ≠ [] := by
            intro hNil
            rw [hNil] at hEnd
            simp at hEnd
          rw [List.dropLast_cons_of_ne_nil hSome]
          rfl
      · rw [List.cons_append]
        exact ih (.inr (by simp))

theorem Whole.cons {c : Char} (h : Whole l) (hHead : c ≠ '\r') : Whole (c :: l) := by
  unfold Whole lines at h ⊢
  rw [linesFrom, if_neg (by simp), List.nil_append, linesFrom_head (.inl hHead), h]
  rfl

theorem whole_of_notMem (h : '\n' ∉ l) : Whole l := by
  have hFrom : ∀ cur, linesFrom cur l = [cur ++ l] := by
    induction l with
    | nil => simp
    | cons c rest ih =>
        intro cur
        rw [List.mem_cons, not_or] at h
        rw [linesFrom, if_neg fun hEnd => h.1 hEnd.1.symm, ih h.2]
        simp
  exact hFrom []

/-- Lines put together are found again. -/
theorem lines_intercalate {ls : List (List Char)} (hSome : ls ≠ []) (h : ∀ l ∈ ls, Whole l) :
    lines (List.intercalate ['\r', '\n'] ls) = ls := by
  induction ls with
  | nil => exact absurd rfl hSome
  | cons first more ih =>
      have hFirst := h first List.mem_cons_self
      cases more with
      | nil => simpa [Whole] using hFirst
      | cons next more =>
          have hMore := ih (by simp) fun l hl => h l (List.mem_cons_of_mem _ hl)
          rw [List.intercalate_cons_cons, List.append_assoc]
          show lines (first ++ '\r' :: '\n' :: List.intercalate ['\r', '\n'] (next :: more)) = _
          rw [lines_line hFirst, hMore]

/-- Lines that have ended stand before what follows. -/
theorem lines_flatMap {ls : List (List Char)} (h : ∀ l ∈ ls, Whole l) (rest : List Char) :
    lines (ls.flatMap (· ++ ['\r', '\n']) ++ rest) = ls ++ lines rest := by
  induction ls with
  | nil => rfl
  | cons l ls ih =>
      have hFirst : (l :: ls).flatMap (· ++ ['\r', '\n']) ++ rest =
          l ++ '\r' :: '\n' :: (ls.flatMap (· ++ ['\r', '\n']) ++ rest) := by simp
      rw [hFirst, lines_line (h l List.mem_cons_self), ih fun l' hl => h l' (List.mem_cons_of_mem l hl),
        List.cons_append]

end whole

/-- In a part of a text of lines that have all ended, the last one has not. -/
theorem finished_of_cut {a b : List Char} {ls : List (List Char)} (h : lines (a ++ b) = ls ++ [[]])
    (hMore : b ≠ []) : (lines a).dropLast <+: ls.dropLast := by
  have hAll : ls ++ [[]] = (lines a).dropLast ++ linesFrom (unfinished (lines a)) b :=
    h.symm.trans (linesFrom_append [] a b)
  -- what follows the cut is more than the end of the last line
  have hShort : (lines a).dropLast.length ≤ ls.dropLast.length := by
    by_contra hLong
    have hLength := congrArg List.length hAll
    have hRest := List.length_pos_iff.mpr (linesFrom_ne_nil (unfinished (lines a)) b)
    rw [List.length_append, List.length_append, List.length_singleton] at hLength
    have hFewer : ls.dropLast.length = ls.length - 1 := List.length_dropLast
    have hOne : (lines a).dropLast.length = ls.length := by omega
    have hLast := (List.append_inj hAll hOne.symm).2
    have hNil := linesFrom_singleton hLast.symm
    exact hMore (List.append_eq_nil_iff.mp hNil.symm).2
  exact List.prefix_of_prefix_length_le ⟨_, hAll.symm⟩
    ((List.dropLast_prefix ls).trans (List.prefix_append ls _)) hShort

end Crlf
