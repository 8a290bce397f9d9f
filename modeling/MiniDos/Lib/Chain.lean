/-!
# MiniDos.Lib.Chain

Chains along a successor function: from a start, through nodes, to a stop mark. A chain is the
list of the nodes passed. Over any type; nodes and stop marks are disjoint in all uses.

* `IsChain.unique`: a start has at most one chain.
* `IsChain.nodup`: a chain passes no node twice.
* `IsChain.congr`: a chain depends on the successor function only at its own nodes.
* `IsChain.extend`: a chain whose last node is linked to a new last node.
-/

namespace MiniDos
namespace Chain

variable {α : Type}

def IsChain (next : α → α) (node stop : α → Prop) : α → List α → Prop
  | c, [] => stop c
  | c, x :: l => c = x ∧ node x ∧ IsChain next node stop (next x) l

namespace IsChain

variable {next next' : α → α} {node stop stop' : α → Prop} {c : α} {l l' : List α}

theorem mono (hs : ∀ x, stop x → stop' x) (h : IsChain next node stop c l) :
    IsChain next node stop' c l := by
  induction l generalizing c with
  | nil => exact hs _ h
  | cons x l ih => exact ⟨h.1, h.2.1, ih h.2.2⟩

theorem start_eq {x : α} (h : IsChain next node stop c (x :: l)) : c = x := h.1

theorem node_of_mem (h : IsChain next node stop c l) : ∀ x ∈ l, node x := by
  induction l generalizing c with
  | nil => intro x hx; cases hx
  | cons y l ih =>
    intro x hx
    obtain ⟨_, hy, hl⟩ := h
    rcases List.mem_cons.mp hx with rfl | hx
    · exact hy
    · exact ih hl x hx

theorem unique (hns : ∀ x, node x → ¬ stop x) (h : IsChain next node stop c l)
    (h' : IsChain next node stop c l') : l = l' := by
  induction l generalizing c l' with
  | nil =>
    cases l' with
    | nil => rfl
    | cons y l' =>
      obtain ⟨rfl, hn, _⟩ := h'
      exact absurd h (hns _ hn)
  | cons x l ih =>
    obtain ⟨rfl, hn, hl⟩ := h
    cases l' with
    | nil => exact absurd h' (hns _ hn)
    | cons y l' =>
      obtain ⟨rfl, _, hl'⟩ := h'
      rw [ih hl hl']

theorem suffix {x : α} {pre post : List α} (h : IsChain next node stop c (pre ++ x :: post)) :
    IsChain next node stop x (x :: post) := by
  induction pre generalizing c with
  | nil =>
    obtain ⟨rfl, hn, hl⟩ := h
    exact ⟨rfl, hn, hl⟩
  | cons y pre ih => exact ih h.2.2

theorem nodup (hns : ∀ x, node x → ¬ stop x) (h : IsChain next node stop c l) : l.Nodup := by
  induction l generalizing c with
  | nil => exact List.nodup_nil
  | cons x l ih =>
    obtain ⟨rfl, hn, hl⟩ := h
    refine List.nodup_cons.mpr ⟨?_, ih hl⟩
    intro hmem
    -- a second visit would give the node two chains of different length
    obtain ⟨pre, post, rfl⟩ := List.append_of_mem hmem
    have h1 : IsChain next node stop c (c :: (pre ++ c :: post)) := ⟨rfl, hn, hl⟩
    have h2 : IsChain next node stop c (c :: post) := hl.suffix
    have := congrArg List.length (unique hns h1 h2)
    simp at this
    omega

theorem congr (hx : ∀ x ∈ l, next' x = next x) (h : IsChain next node stop c l) :
    IsChain next' node stop c l := by
  induction l generalizing c with
  | nil => exact h
  | cons x l ih =>
    obtain ⟨rfl, hn, hl⟩ := h
    refine ⟨rfl, hn, ?_⟩
    rw [hx c List.mem_cons_self]
    exact ih (fun y hy => hx y (List.mem_cons_of_mem _ hy)) hl

theorem getElem?_succ (hns : ∀ x, node x → ¬ stop x) {x : α} :
    ∀ {l : List α} {c : α} {i : Nat}, IsChain next node stop c l → l[i]? = some x →
      node (next x) → l[i + 1]? = some (next x) := by
  intro l
  induction l with
  | nil => exact fun _ hi => by simp at hi
  | cons y l ih =>
    rintro c i ⟨rfl, hy, hl⟩ hi hx
    cases i with
    | succ i => exact ih hl hi hx
    | zero =>
      obtain rfl : c = x := by simpa using hi
      cases l with
      | nil => exact absurd hl (hns _ hx)
      | cons z l => simp [hl.1]

theorem extend {t n : α} {pre post : List α} (h : IsChain next node stop c (pre ++ t :: post))
    (hpre : ∀ x ∈ pre, next' x = next x) (ht : next' t = n) (hn : node n) (hs : stop (next' n)) :
    IsChain next' node stop c (pre ++ [t, n]) := by
  induction pre generalizing c with
  | nil =>
    obtain ⟨rfl, hnc, _⟩ := h
    exact ⟨rfl, hnc, ht, hn, hs⟩
  | cons y pre ih =>
    obtain ⟨rfl, hy, hl⟩ := h
    refine ⟨rfl, hy, ?_⟩
    rw [hpre c List.mem_cons_self]
    exact ih hl (fun x hx => hpre x (List.mem_cons_of_mem _ hx))

end IsChain

end Chain
end MiniDos
