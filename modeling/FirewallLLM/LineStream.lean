import Mathlib.Data.List.Basic

/-! # Lines of a stream that comes in pieces

A line reader gathers the items of a stream until the separator ends a line; what is left at the
end of the stream is a last line.  How the stream is cut into pieces plays no part
(`readAll_eq`), and a line that has no separator of its own is read as it was written
(`lines_line`). -/

namespace LineStream

variable {α : Type} [DecidableEq α] (sep : α)

/-- Read a piece with what is gathered of the present line: the lines that end in the piece, and
what is gathered after it. -/
def scan (gathered : List α) : List α → List (List α) × List α
  | [] => ([], gathered)
  | x :: xs =>
      if x = sep then (gathered :: (scan [] xs).1, (scan [] xs).2)
      else scan (gathered ++ [x]) xs

/-- The last line of a stream, if there is anything behind the last separator. -/
def last (gathered : List α) : List (List α) := if gathered = [] then [] else [gathered]

/-- Read piece by piece. -/
def readFrom (gathered : List α) : List (List α) → List (List α)
  | [] => last gathered
  | piece :: pieces => (scan sep gathered piece).1 ++ readFrom (scan sep gathered piece).2 pieces

def readAll (pieces : List (List α)) : List (List α) := readFrom sep [] pieces

/-- The lines of a whole stream. -/
def lines (xs : List α) : List (List α) := (scan sep [] xs).1 ++ last (scan sep [] xs).2

variable {sep}

theorem scan_append (gathered xs ys : List α) : scan sep gathered (xs ++ ys) =
    ((scan sep gathered xs).1 ++ (scan sep (scan sep gathered xs).2 ys).1,
      (scan sep (scan sep gathered xs).2 ys).2) := by
  induction xs generalizing gathered with
  | nil => rfl
  | cons x xs ih =>
      rw [List.cons_append, scan, scan]
      split_ifs
      · rw [ih]
        rfl
      · exact ih _

theorem readFrom_eq (gathered : List α) (pieces : List (List α)) : readFrom sep gathered pieces =
    (scan sep gathered pieces.flatten).1 ++ last (scan sep gathered pieces.flatten).2 := by
  induction pieces generalizing gathered with
  | nil => rfl
  | cons piece pieces ih =>
      rw [readFrom, ih, List.flatten_cons, scan_append, List.append_assoc]

/-- **The lines do not depend on how the stream is cut.** -/
theorem readAll_eq (pieces : List (List α)) : readAll sep pieces = lines sep pieces.flatten :=
  readFrom_eq [] pieces

theorem scan_line {xs : List α} (h : sep ∉ xs) (gathered rest : List α) :
    scan sep gathered (xs ++ sep :: rest) =
      ((gathered ++ xs) :: (scan sep [] rest).1, (scan sep [] rest).2) := by
  induction xs generalizing gathered with
  | nil => rw [List.nil_append, scan, if_pos rfl, List.append_nil]
  | cons x xs ih =>
      obtain ⟨hx, hxs⟩ := not_or.mp (mt List.mem_cons.mpr h)
      rw [List.cons_append, scan, if_neg (Ne.symm hx), ih hxs, List.append_assoc]
      rfl

theorem lines_line {xs : List α} (h : sep ∉ xs) (rest : List α) :
    lines sep (xs ++ sep :: rest) = xs :: lines sep rest := by
  rw [lines, scan_line h]
  rfl

/-- Lines that are ended one by one are read back. -/
theorem lines_flatMap {ls : List (List α)} (h : ∀ l ∈ ls, sep ∉ l) (rest : List α) :
    lines sep (ls.flatMap (· ++ [sep]) ++ rest) = ls ++ lines sep rest := by
  induction ls with
  | nil => rfl
  | cons l ls ih =>
      obtain ⟨hl, hls⟩ := List.forall_mem_cons.mp h
      rw [List.flatMap_cons, List.append_assoc, List.append_assoc, List.singleton_append,
        lines_line hl, ih hls]
      rfl

end LineStream
