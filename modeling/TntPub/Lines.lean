import Mathlib.Data.List.Basic

/-! Texts whose lines are ended by a separator, the last one possibly not. -/

namespace Lines

variable {α : Type*} [DecidableEq α]

/-- The lines of a text without their separators. -/
def linesOf (sep : α) : List α → List (List α)
  | [] => []
  | c :: text =>
    if c = sep then [] :: linesOf sep text
    else match linesOf sep text with
      | [] => [[c]]
      | line :: lines => (c :: line) :: lines

/-- Takes one line with its separator from a text. -/
def getline (sep : α) (text : List α) : Option (List α × List α) :=
  if text = [] then none
  else some (text.takeWhile (· ≠ sep), (text.dropWhile (· ≠ sep)).drop 1)

/-- Each line with a separator behind it. -/
def putLines (sep : α) (lines : List (List α)) : List α := lines.flatMap fun line => line ++ [sep]

/-- The text with its last line ended. -/
def terminated (sep : α) (text : List α) : List α :=
  if text = [] ∨ text.getLast? = some sep then text else text ++ [sep]

variable {sep : α} {text line rest : List α}

theorem linesOf_eq (htext : text ≠ []) :
    linesOf sep text = text.takeWhile (· ≠ sep) ::
      linesOf sep ((text.dropWhile (· ≠ sep)).drop 1) := by
  induction text with
  | nil => exact absurd rfl htext
  | cons c text ih =>
    by_cases hc : c = sep
    · subst hc
      simp [linesOf]
    · by_cases hnil : text = []
      · subst hnil
        simp [linesOf, hc]
      · have hrest := ih hnil
        rw [linesOf, if_neg hc, hrest]
        simp [hc]

/-- Line by line, `getline` gives the lines of the text. -/
theorem linesOf_getline (h : getline sep text = some (line, rest)) :
    linesOf sep text = line :: linesOf sep rest := by
  unfold getline at h
  split at h
  next => cases h
  next htext =>
    obtain ⟨rfl, rfl⟩ := Prod.mk.inj (Option.some.inj h)
    exact linesOf_eq htext

theorem terminated_cons (sep : α) {c : α} (htext : text ≠ []) :
    terminated sep (c :: text) = c :: terminated sep text := by
  have hlast : (c :: text).getLast? = text.getLast? := by
    obtain ⟨d, text, rfl⟩ := List.exists_cons_of_ne_nil htext
    rw [List.getLast?_cons_cons]
  unfold terminated
  rw [hlast]
  by_cases h : text.getLast? = some sep
  · simp [h]
  · simp [h, htext]

/-- The lines of a text, each ended, are the text with its last line ended. -/
theorem putLines_linesOf (sep : α) (text : List α) :
    putLines sep (linesOf sep text) = terminated sep text := by
  induction text with
  | nil => rfl
  | cons c text ih =>
    by_cases hnil : text = []
    · subst hnil
      by_cases hc : c = sep
      · simp [linesOf, putLines, terminated, hc]
      · simp [linesOf, putLines, terminated, hc]
    · rw [terminated_cons sep hnil, ← ih]
      by_cases hc : c = sep
      · subst hc
        simp [linesOf, putLines]
      · rw [linesOf, if_neg hc, linesOf_eq hnil]
        simp [putLines]

example : linesOf 0 [1, 2, 0, 0, 3] = [[1, 2], [], [3]] := by decide

end Lines
