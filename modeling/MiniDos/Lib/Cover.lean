import Mathlib.Data.List.Basic

/-!
# MiniDos.Lib.Cover

A bounded list of sets that is to cover everything added to it. What is added is dropped where an
entry contains it, takes the place of an entry that it contains, goes behind the others, or is joined
with the last entry when the list is full.

* `add_length`: the list stays within its capacity.
* `has_add`: what was covered stays so, and what is added is covered, where the join reaches that far.
-/

namespace MiniDos
namespace Cover

variable {α β : Type} (contains : α → α → Bool)

/-- The first entry that contains `a` or that `a` contains. -/
def absorb (a : α) : List α → Option (List α)
  | [] => none
  | b :: l =>
    if contains b a then some (b :: l)
    else if contains a b then some (a :: l)
    else (absorb a l).map (b :: ·)

variable (join : α → α → α) (capacity : Nat)

def add (l : List α) (a : α) : List α :=
  match absorb contains a l with
  | some l' => l'
  | none => if l.length < capacity then l ++ [a] else l.modify (l.length - 1) (join · a)

variable {contains join capacity} {has : α → β → Prop} {P : α → Prop} {l l' : List α} {a : α} {p : β}

/-- Some entry has it. -/
def Has (has : α → β → Prop) (l : List α) (p : β) : Prop := ∃ b ∈ l, has b p

/-- An entry that contains `a` stays, one that is part of `a` is replaced, and the others are left. -/
theorem absorb_cons {b : α} (h : absorb contains a (b :: l) = some l') :
    (contains b a = true ∧ l' = b :: l) ∨ (contains a b = true ∧ l' = a :: l) ∨
      ∃ l₁, absorb contains a l = some l₁ ∧ l' = b :: l₁ := by
  unfold absorb at h
  split at h
  · exact .inl ⟨‹_›, (Option.some.inj h).symm⟩
  · split at h
    · exact .inr (.inl ⟨‹_›, (Option.some.inj h).symm⟩)
    · obtain ⟨l₁, hl₁, rfl⟩ := Option.map_eq_some_iff.mp h
      exact .inr (.inr ⟨l₁, hl₁, rfl⟩)

theorem absorb_length (h : absorb contains a l = some l') : l'.length = l.length := by
  induction l generalizing l' with
  | nil => cases h
  | cons b l ih =>
    obtain ⟨-, rfl⟩ | ⟨-, rfl⟩ | ⟨l₁, hl₁, rfl⟩ := absorb_cons h
    · rfl
    · rfl
    · exact congrArg (· + 1) (ih hl₁)

theorem absorb_all (hP : ∀ b ∈ l, P b) (ha : P a) (h : absorb contains a l = some l') : ∀ b ∈ l', P b := by
  induction l generalizing l' with
  | nil => cases h
  | cons b l ih =>
    have hl : ∀ c ∈ l, P c := fun c hc => hP c (List.mem_cons_of_mem b hc)
    obtain ⟨-, rfl⟩ | ⟨-, rfl⟩ | ⟨l₁, hl₁, rfl⟩ := absorb_cons h
    · exact hP
    · exact List.forall_mem_cons.mpr ⟨ha, hl⟩
    · exact List.forall_mem_cons.mpr ⟨hP b List.mem_cons_self, ih hl hl₁⟩

/-- An entry that is replaced is part of what takes its place. -/
theorem has_absorb (hsound : ∀ b c, P b → P c → contains b c = true → ∀ p, has c p → has b p)
    (hP : ∀ b ∈ l, P b) (ha : P a) (h : absorb contains a l = some l') (hp : Has has l p ∨ has a p) :
    Has has l' p := by
  induction l generalizing l' with
  | nil => cases h
  | cons b l ih =>
    have hb := hP b List.mem_cons_self
    have hl : ∀ c ∈ l, P c := fun c hc => hP c (List.mem_cons_of_mem b hc)
    obtain ⟨hin, rfl⟩ | ⟨hin, rfl⟩ | ⟨l₁, hl₁, rfl⟩ := absorb_cons h
    · exact hp.elim id (fun hp => ⟨b, List.mem_cons_self, hsound b a hb ha hin p hp⟩)
    · rcases hp with ⟨c, hc, hp⟩ | hp
      · rcases List.mem_cons.mp hc with rfl | hc
        · exact ⟨a, List.mem_cons_self, hsound a c ha hb hin p hp⟩
        · exact ⟨c, List.mem_cons_of_mem a hc, hp⟩
      · exact ⟨a, List.mem_cons_self, hp⟩
    · rcases hp with ⟨c, hc, hp⟩ | hp
      · rcases List.mem_cons.mp hc with rfl | hc
        · exact ⟨c, List.mem_cons_self, hp⟩
        · obtain ⟨e, he, hpe⟩ := ih hl hl₁ (.inl ⟨c, hc, hp⟩)
          exact ⟨e, List.mem_cons_of_mem b he, hpe⟩
      · obtain ⟨e, he, hpe⟩ := ih hl hl₁ (.inr hp)
        exact ⟨e, List.mem_cons_of_mem b he, hpe⟩

theorem add_length (hl : l.length ≤ capacity) : (add contains join capacity l a).length ≤ capacity := by
  unfold add
  split
  · rename_i l' h
    rw [absorb_length h]
    exact hl
  · split
    · rw [List.length_append, List.length_singleton]
      omega
    · rw [List.length_modify]
      exact hl

/-- The entry that `a` is joined with, if it is. -/
def Joined (contains : α → α → Bool) (capacity : Nat) (l : List α) (a b : α) : Prop :=
  absorb contains a l = none ∧ capacity ≤ l.length ∧ l.getLast? = some b

theorem modify_last (f : α → α) {b : α} (h : l.getLast? = some b) :
    l.modify (l.length - 1) f = l.dropLast ++ [f b] := by
  obtain ⟨l₁, rfl⟩ : ∃ l₁, l = l₁ ++ [b] := by
    refine ⟨l.dropLast, ?_⟩
    rw [List.dropLast_append_getLast? b h]
  rw [List.modify_eq_take_cons_drop (by simp)]
  simp

theorem add_all (hP : ∀ b ∈ l, P b) (ha : P a) (hcap : 0 < capacity)
    (hjoin : ∀ b, Joined contains capacity l a b → P (join b a)) :
    ∀ b ∈ add contains join capacity l a, P b := by
  unfold add
  split
  · rename_i l' h
    exact absorb_all hP ha h
  · rename_i hnone
    split
    · intro b hb
      rcases List.mem_append.mp hb with hb | hb
      · exact hP b hb
      · rw [List.mem_singleton.mp hb]
        exact ha
    · rename_i hfull
      rw [Nat.not_lt] at hfull
      cases hlast : l.getLast? with
      | none =>
        rw [List.getLast?_eq_none_iff] at hlast
        subst hlast
        simp at hfull
        omega
      | some b =>
        rw [modify_last _ hlast]
        intro c hc
        rcases List.mem_append.mp hc with hc | hc
        · exact hP c ((List.dropLast_sublist l).subset hc)
        · rw [List.mem_singleton.mp hc]
          exact hjoin b ⟨hnone, hfull, hlast⟩

theorem has_add (hsound : ∀ b c, P b → P c → contains b c = true → ∀ p, has c p → has b p)
    (hP : ∀ b ∈ l, P b) (ha : P a) (hcap : 0 < capacity)
    (hjoin : ∀ b, Joined contains capacity l a b → ∀ p, has b p ∨ has a p → has (join b a) p)
    (hp : Has has l p ∨ has a p) : Has has (add contains join capacity l a) p := by
  unfold add
  split
  · rename_i l' h
    exact has_absorb hsound hP ha h hp
  · rename_i hnone
    split
    · rcases hp with ⟨b, hb, hp⟩ | hp
      · exact ⟨b, List.mem_append_left _ hb, hp⟩
      · exact ⟨a, List.mem_append_right _ List.mem_cons_self, hp⟩
    · rename_i hfull
      rw [Nat.not_lt] at hfull
      cases hlast : l.getLast? with
      | none =>
        rw [List.getLast?_eq_none_iff] at hlast
        subst hlast
        simp at hfull
        omega
      | some b =>
        have hreach := hjoin b ⟨hnone, hfull, hlast⟩ p
        rw [modify_last _ hlast]
        rcases hp with ⟨c, hc, hp⟩ | hp
        · rw [← List.dropLast_append_getLast? b hlast] at hc
          rcases List.mem_append.mp hc with hc | hc
          · exact ⟨c, List.mem_append_left _ hc, hp⟩
          · rw [List.mem_singleton.mp hc] at hp
            exact ⟨join b a, List.mem_append_right _ List.mem_cons_self, hreach (.inl hp)⟩
        · exact ⟨join b a, List.mem_append_right _ List.mem_cons_self, hreach (.inr hp)⟩

end Cover
end MiniDos
