import Mathlib.Data.List.DropRight

namespace HomelabApps.Library

structure LineReader (α : Type) where
  breaks : α → Bool
  blank : List α → Bool
  blank_nil : blank [] = true

namespace LineReader

variable {α : Type} {r : LineReader α} {u : α} {s t : List α} {parts : List (List α)}

def lines (r : LineReader α) (text : List α) : List (List α) := text.splitOnP r.breaks

def lastParagraph (r : LineReader α) (text : List α) : List (List α) :=
  ((r.lines text).rdropWhile r.blank).rtakeWhile fun line => !r.blank line

theorem lines_append (hu : r.breaks u) : r.lines (s ++ u :: t) = r.lines s ++ r.lines t :=
  List.splitOnP_append_cons s t hu

theorem lines_of_unbroken (h : ∀ v ∈ s, r.breaks v = false) : r.lines s = [s] := List.splitOnP_eq_singleton h

theorem lines_intercalate (hu : r.breaks u) (hparts : ∀ part ∈ parts, ∀ v ∈ part, r.breaks v = false)
    (hne : parts ≠ []) : r.lines ([u].intercalate parts) = parts := by
  induction parts with
  | nil => exact absurd rfl hne
  | cons part parts ih =>
    have hpart := lines_of_unbroken (hparts part List.mem_cons_self)
    cases parts with
    | nil => simpa using hpart
    | cons next parts =>
      have hrest := ih (fun line hline => hparts line (List.mem_cons_of_mem _ hline)) (List.cons_ne_nil _ _)
      rw [List.intercalate_cons_cons, List.append_assoc, List.singleton_append, lines_append hu, hpart, hrest]
      rfl

theorem lastParagraph_append (hu : r.breaks u) (hparts : ∀ part ∈ parts, ∀ v ∈ part, r.breaks v = false)
    (hblank : ∀ part ∈ parts, r.blank part = false) (hne : parts ≠ []) :
    r.lastParagraph (s ++ u :: u :: [u].intercalate parts) = parts := by
  have hlines : r.lines (s ++ u :: u :: [u].intercalate parts) = (r.lines s ++ [[]]) ++ parts := by
    rw [lines_append hu, ← List.nil_append (u :: [u].intercalate parts), lines_append hu,
      lines_intercalate hu hparts hne, List.append_assoc]
    rfl
  have hdrop : ((r.lines s ++ [[]]) ++ parts).rdropWhile r.blank = (r.lines s ++ [[]]) ++ parts := by
    rw [List.rdropWhile_eq_self_iff]
    intro hl
    rw [List.getLast_append_of_ne_nil _ hne, hblank _ (List.getLast_mem hne)]
    exact Bool.false_ne_true
  have hkeep : ∀ part ∈ parts.reverse, (!r.blank part) = true := by
    intro part hpart
    rw [hblank part (List.mem_reverse.mp hpart), Bool.not_false]
  rw [lastParagraph, hlines, hdrop, List.rtakeWhile, List.reverse_append, List.takeWhile_append_of_pos hkeep]
  simp [r.blank_nil]

end LineReader

end HomelabApps.Library
