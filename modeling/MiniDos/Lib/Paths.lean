import Mathlib.Data.List.Induction

/-!
# MiniDos.Lib.Paths

Paths from the root of a graph with labelled edges, and their texts, in which every label stands
behind a separator.

* `text`, `parts`: the text of a path, and the labels of a text.
* `walk`: the node that a path leads to. `walk_parent`: where every node has one parent, the path
  without its last label leads to that parent.
-/

namespace MiniDos
namespace Paths

/-! ## Texts -/

section Text

variable {α : Type} (sep : α)

def joined (labels : List (List α)) : List α := labels.flatMap (fun l => sep :: l)

/-- The text of a path; the empty path is the separator. -/
def text (labels : List (List α)) : List α := if labels = [] then [sep] else joined sep labels

/-- What stands between the separators of a text, where anything does. -/
def parts [DecidableEq α] (s : List α) : List (List α) := (s.splitOn sep).filter (fun l => decide (l ≠ []))

/-- The labels that come back from a text. -/
def Spelled (labels : List (List α)) : Prop := ∀ l ∈ labels, l ≠ [] ∧ sep ∉ l

variable {sep} {labels : List (List α)} {l : List α}

@[simp] theorem text_nil : text sep [] = [sep] := rfl

theorem joined_concat : joined sep (labels ++ [l]) = joined sep labels ++ sep :: l := by
  simp [joined]

theorem text_eq_joined (h : labels ≠ []) : text sep labels = joined sep labels := if_neg h

theorem text_concat : text sep (labels ++ [l]) = joined sep labels ++ sep :: l := by
  rw [text_eq_joined (by simp), joined_concat]

theorem splitOn_joined [DecidableEq α] (h : Spelled sep labels) : (joined sep labels).splitOn sep = [] :: labels := by
  induction labels using List.reverseRecOn with
  | nil => rfl
  | append_singleton ls l ih =>
    have hl := h l (by simp)
    have hls : Spelled sep ls := fun x hx => h x (List.mem_append_left _ hx)
    rw [joined_concat, List.splitOn_append_cons_self, ih hls, List.splitOn_eq_singleton hl.2]
    rfl

theorem parts_text [DecidableEq α] (h : Spelled sep labels) : parts sep (text sep labels) = labels := by
  unfold parts
  by_cases hnil : labels = []
  · have hsep : [sep].splitOn sep = [[], []] := by
      rw [← List.nil_append [sep], List.splitOn_append_cons_self]
      rfl
    rw [hnil, text_nil, hsep]
    rfl
  · have hkeep : labels.filter (fun l => decide (l ≠ [])) = labels :=
      List.filter_eq_self.mpr (fun l hl => decide_eq_true (h l hl).1)
    rw [text_eq_joined hnil, splitOn_joined h, List.filter_cons_of_neg (by simp), hkeep]

end Text

/-! ## Walks -/

section Walk

variable {ν ι : Type} (step : ν → ι → Option ν)

/-- The node that the labels lead to from node `a`. -/
def walk (a : ν) (labels : List ι) : Option ν := labels.foldlM step a

variable {step} {a b : ν} {labels : List ι} {l : ι}

@[simp] theorem walk_nil : walk step a [] = some a := rfl

@[simp] theorem walk_cons : walk step a (l :: labels) = (step a l).bind (fun b => walk step b labels) :=
  rfl

theorem walk_concat : walk step a (labels ++ [l]) = (walk step a labels).bind (fun b => step b l) := by
  simp [walk, List.foldlM_append]

variable {P : ν → Prop} {Q : ι → Prop}

theorem walk_holds (hstep : ∀ a l b, P a → Q l → step a l = some b → P b) (ha : P a)
    (hlabels : ∀ l ∈ labels, Q l) (h : walk step a labels = some b) : P b := by
  induction labels generalizing a with
  | nil =>
    cases h
    exact ha
  | cons l ls ih =>
    rw [walk_cons, Option.bind_eq_some_iff] at h
    obtain ⟨c, hc, hrest⟩ := h
    have hPc := hstep a l c ha (hlabels l List.mem_cons_self) hc
    exact ih hPc (fun x hx => hlabels x (List.mem_cons_of_mem l hx)) hrest

theorem walk_parent {up : ν → Option ν} (hstep : ∀ a l b, P a → Q l → step a l = some b → P b)
    (hup : ∀ a l b, P a → Q l → step a l = some b → up b = some a) (ha : P a)
    (hlabels : ∀ x ∈ labels ++ [l], Q x) (h : walk step a (labels ++ [l]) = some b) :
    walk step a labels = up b := by
  rw [walk_concat, Option.bind_eq_some_iff] at h
  obtain ⟨c, hc, hlast⟩ := h
  have hPc := walk_holds hstep ha (fun x hx => hlabels x (List.mem_append_left _ hx)) hc
  rw [hc, hup c l b hPc (hlabels l (by simp)) hlast]

end Walk

end Paths
end MiniDos
