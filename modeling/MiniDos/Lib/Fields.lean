import Mathlib.Data.Nat.Digits.Defs
import Mathlib.Data.List.Induction
import Mathlib.Data.List.TakeWhile

/-!
# MiniDos.Lib.Fields

Texts that are made of runs of digits.

* `Padded`: a text with blanks around it. `padded_iff` leaves out those in front.
* `number`: what a run of digits denotes.
* `Split`: a text as fields, a separator between two of them. `readFields` reads such a text from
  left to right, and `readFields_iff` says which texts it takes, and as which fields.
-/

namespace MiniDos
namespace Fields

variable {α : Type}

/-! ## Blanks -/

section Blanks

variable {blank : α → Bool} {P : List α → Prop}

/-- A text of the kind `P` with blanks around it. -/
def Padded (blank : α → Bool) (P : List α → Prop) (s : List α) : Prop :=
  ∃ lead t trail, s = lead ++ (t ++ trail) ∧ (∀ c ∈ lead, blank c = true) ∧ P t ∧
    ∀ c ∈ trail, blank c = true

theorem dropWhile_append_of_head {lead t : List α} (hlead : ∀ c ∈ lead, blank c = true)
    (ht : ∃ c u, t = c :: u ∧ blank c = false) : (lead ++ t).dropWhile blank = t := by
  obtain ⟨c, u, rfl, hc⟩ := ht
  rw [List.dropWhile_append_of_pos hlead, List.dropWhile_cons_of_neg (by simp [hc])]

theorem padded_iff (hP : ∀ t, P t → ∃ c u, t = c :: u ∧ blank c = false) {s : List α} :
    Padded blank P s ↔ ∃ t trail, s.dropWhile blank = t ++ trail ∧ P t ∧
      ∀ c ∈ trail, blank c = true := by
  constructor
  · rintro ⟨lead, t, trail, rfl, hlead, ht, htrail⟩
    obtain ⟨c, u, rfl, hc⟩ := hP t ht
    exact ⟨c :: u, trail, dropWhile_append_of_head hlead ⟨c, u ++ trail, rfl, hc⟩, ht, htrail⟩
  · rintro ⟨t, trail, hs, ht, htrail⟩
    refine ⟨s.takeWhile blank, t, trail, ?_, fun c hc => List.mem_takeWhile_imp hc, ht, htrail⟩
    rw [← hs, List.takeWhile_append_dropWhile]

theorem run_append_pad {digit : α → Bool} (hbd : ∀ c, blank c = true → digit c = false)
    {d pad : List α} (hd : ∀ c ∈ d, digit c = true) (hpad : ∀ c ∈ pad, blank c = true) :
    (d ++ pad).takeWhile digit = d ∧ (d ++ pad).dropWhile digit = pad := by
  rw [List.takeWhile_append_of_pos hd, List.dropWhile_append_of_pos hd]
  cases pad with
  | nil => simp
  | cons c pad =>
    have hc : ¬ digit c = true := by simp [hbd c (hpad c (by simp))]
    rw [List.takeWhile_cons_of_neg hc, List.dropWhile_cons_of_neg hc]
    simp

end Blanks

/-! ## Numbers -/

/-- What a run of digits denotes in base `b`, `digit` the value of each. -/
def number (b : Nat) (digit : α → Nat) (ds : List α) : Nat :=
  Nat.ofDigits b (ds.map digit).reverse

section Number

variable {b : Nat} {digit : α → Nat}

@[simp] theorem number_nil : number b digit [] = 0 := rfl

@[simp] theorem number_concat {ds : List α} {c : α} :
    number b digit (ds ++ [c]) = number b digit ds * b + digit c := by
  simp only [number, List.map_append, List.map_cons, List.map_nil, List.reverse_append,
    List.reverse_cons, List.reverse_nil, List.nil_append, List.singleton_append, Nat.ofDigits_cons]
  ring

theorem number_lt {ds : List α} (h : ∀ c ∈ ds, digit c < b) :
    number b digit ds < b ^ ds.length := by
  induction ds using List.reverseRec with
  | nil => simp
  | append_singleton ds c ih =>
    have hds := ih fun d hd => h d (by simp [hd])
    have hc := h c (by simp)
    rw [number_concat, List.length_append, List.length_singleton, pow_succ]
    calc number b digit ds * b + digit c < number b digit ds * b + b := by omega
      _ = (number b digit ds + 1) * b := by ring
      _ ≤ b ^ ds.length * b := Nat.mul_le_mul_right b hds

end Number

/-! ## Fields -/

/-- The text as fields of digits, with a separator between two of them. -/
inductive Split (digit sep : α → Bool) : List α → List (List α) → Prop
  | last {d : List α} (hd : ∀ c ∈ d, digit c = true) : Split digit sep d [d]
  | more {d t : List α} {c : α} {fs : List (List α)} (hd : ∀ c ∈ d, digit c = true)
      (hc : sep c = true) (h : Split digit sep t fs) : Split digit sep (d ++ c :: t) (d :: fs)

/-- The fields are not empty, and field `i + k` has at most `room (i + k)` characters. -/
def Fit (room : Nat → Nat) : Nat → List (List α) → Prop
  | _, [] => True
  | i, f :: fs => f ≠ [] ∧ f.length ≤ room i ∧ Fit room (i + 1) fs

/-- Reads at most `most` fields, up to the end of the text or to the blanks there; `done` and `cur`
are read, and the field being read may be empty only at the end. -/
def readFields (digit sep blank : α → Bool) (room : Nat → Nat) (most : Nat)
    (done : List (List α)) (cur : List α) : List α → Option (List (List α) × List α)
  | [] => some (done, cur)
  | c :: s =>
    if digit c then
      if cur.length < room done.length then
        readFields digit sep blank room most done (cur ++ [c]) s
      else none
    else if sep c then
      if cur ≠ [] ∧ done.length + 1 < most then
        readFields digit sep blank room most (done ++ [cur]) [] s
      else none
    else if blank c then (if s.dropWhile blank = [] then some (done, cur) else none)
    else none

section Split

variable {digit sep blank : α → Bool} {room : Nat → Nat} {most : Nat}

theorem Split.head {t d : List α} {fs : List (List α)} (h : Split digit sep t (d :: fs))
    (hd : d ≠ []) : ∃ c u, t = c :: u ∧ digit c = true := by
  obtain ⟨c, u, rfl⟩ := List.exists_cons_of_ne_nil hd
  cases h with
  | last hd => exact ⟨c, u, rfl, hd c (by simp)⟩
  | more hd hc h => exact ⟨c, _, rfl, hd c (by simp)⟩

theorem Split.digits {t : List α} {fs : List (List α)} (h : Split digit sep t fs) :
    ∀ f ∈ fs, ∀ c ∈ f, digit c = true := by
  induction h with
  | last hd => simpa using hd
  | more hd hc h ih => simpa using ⟨hd, ih⟩

theorem Fit.length_le {n : Nat} {fs : List (List α)} (hroom : ∀ i, room i ≤ n) :
    ∀ {i : Nat}, Fit room i fs → ∀ f ∈ fs, f.length ≤ n := by
  induction fs with
  | nil => simp
  | cons g fs ih =>
    intro i h f hf
    rcases List.mem_cons.mp hf with rfl | hf
    · exact Nat.le_trans h.2.1 (hroom i)
    · exact ih h.2.2 f hf

theorem split_one {t f : List α} :
    Split digit sep t [f] ↔ t = f ∧ ∀ c ∈ f, digit c = true := by
  constructor
  · intro h
    cases h with
    | last hd => exact ⟨rfl, hd⟩
    | more hd hc h => cases h
  · rintro ⟨rfl, hd⟩
    exact .last hd

theorem split_cons_cons {t f g : List α} {fs : List (List α)} :
    Split digit sep t (f :: g :: fs) ↔ ∃ c u, t = f ++ c :: u ∧ sep c = true ∧
      (∀ c ∈ f, digit c = true) ∧ Split digit sep u (g :: fs) := by
  constructor
  · intro h
    cases h with
    | more hd hc h => exact ⟨_, _, rfl, hc, hd, h⟩
  · rintro ⟨c, u, rfl, hc, hd, h⟩
    exact .more hd hc h

/-! ### Reading -/

theorem readFields_digits {d : List α} (hd : ∀ c ∈ d, digit c = true) :
    ∀ (done : List (List α)) (cur s : List α), cur.length + d.length ≤ room done.length →
      readFields digit sep blank room most done cur (d ++ s) =
        readFields digit sep blank room most done (cur ++ d) s := by
  induction d with
  | nil => simp
  | cons c d ih =>
    intro done cur s hroom
    rw [List.length_cons] at hroom
    have hc : digit c = true := hd c (by simp)
    have hlen : (cur ++ [c]).length + d.length ≤ room done.length := by
      rw [List.length_append, List.length_singleton]
      omega
    rw [List.cons_append, readFields, if_pos hc, if_pos (by omega),
      ih (fun x hx => hd x (by simp [hx])) _ _ _ hlen]
    simp

theorem readFields_pad (hbd : ∀ c, blank c = true → digit c = false)
    (hbs : ∀ c, blank c = true → sep c = false) (done : List (List α)) (cur : List α) :
    ∀ {pad : List α}, (∀ c ∈ pad, blank c = true) →
      readFields digit sep blank room most done cur pad = some (done, cur)
  | [], _ => rfl
  | c :: pad, h => by
    have hc := h c (by simp)
    have hall : pad.dropWhile blank = [] :=
      List.dropWhile_eq_nil_iff.mpr fun x hx => h x (by simp [hx])
    simp [readFields, hbd c hc, hbs c hc, hc, hall]

/-- What was read is the text in front of the blanks. -/
theorem readFields_sound {s : List α} : ∀ {done ds : List (List α)} {cur d : List α},
    (∀ c ∈ cur, digit c = true) → cur.length ≤ room done.length → done.length < most →
    readFields digit sep blank room most done cur s = some (ds, d) → d ≠ [] →
    ∃ t pad gs, s = t ++ pad ∧ (∀ c ∈ pad, blank c = true) ∧ Split digit sep (cur ++ t) gs ∧
      ds ++ [d] = done ++ gs ∧ Fit room done.length gs ∧ done.length + gs.length ≤ most := by
  induction s with
  | nil =>
    intro done ds cur d hcur hroom hmost h hne
    cases h
    exact ⟨[], [], [cur], rfl, by simp, by simpa using Split.last hcur, rfl,
      ⟨hne, hroom, trivial⟩, hmost⟩
  | cons c s ih =>
    intro done ds cur d hcur hroom hmost h hne
    simp only [readFields] at h
    split at h
    case isTrue hc =>
      split at h
      case isTrue hlen =>
        have hcur' : ∀ x ∈ cur ++ [c], digit x = true := by
          simpa [or_imp, forall_and, hc] using hcur
        obtain ⟨t, pad, gs, rfl, hpad, hgs, hfs⟩ := ih hcur' (by simpa using Nat.succ_le_of_lt hlen) hmost h hne
        exact ⟨c :: t, pad, gs, rfl, hpad, by simpa using hgs, hfs⟩
      case isFalse => cases h
    case isFalse =>
      split at h
      case isTrue hc =>
        split at h
        case isTrue hlen =>
          obtain ⟨t, pad, gs, rfl, hpad, hgs, hfs, hfit, hle⟩ :=
            ih (by simp) (by simp) (by simpa using hlen.2) h hne
          refine ⟨c :: t, pad, cur :: gs, rfl, hpad, .more hcur hc (by simpa using hgs),
            by simpa using hfs, ⟨hlen.1, hroom, by simpa using hfit⟩, ?_⟩
          simp only [List.length_append, List.length_cons, List.length_nil] at hle ⊢
          omega
        case isFalse => cases h
      case isFalse =>
        split at h
        case isTrue hc =>
          split at h
          case isTrue hall =>
            cases h
            refine ⟨[], c :: s, [cur], rfl, ?_, by simpa using Split.last hcur, rfl,
              ⟨hne, hroom, trivial⟩, hmost⟩
            simpa [hc] using hall
          case isFalse => cases h
        case isFalse => cases h

theorem readFields_complete (hbd : ∀ c, blank c = true → digit c = false)
    (hbs : ∀ c, blank c = true → sep c = false) (hsd : ∀ c, sep c = true → digit c = false)
    {t : List α} {fs : List (List α)} (h : Split digit sep t fs) :
    ∀ (done : List (List α)) {pad : List α}, (∀ c ∈ pad, blank c = true) →
      Fit room done.length fs → done.length + fs.length ≤ most →
      ∃ ds d, readFields digit sep blank room most done [] (t ++ pad) = some (ds, d) ∧
        d ≠ [] ∧ ds ++ [d] = done ++ fs := by
  induction h with
  | @last d hd =>
    intro done pad hpad hfit hmost
    refine ⟨done, d, ?_, hfit.1, rfl⟩
    rw [readFields_digits hd _ _ _ (by simpa using hfit.2.1), List.nil_append,
      readFields_pad hbd hbs _ _ hpad]
  | @more d t c fs hd hc h ih =>
    intro done pad hpad hfit hmost
    rw [List.length_cons] at hmost
    obtain ⟨ds, e, hread, hne, hds⟩ := ih (done ++ [d]) hpad (by simpa using hfit.2.2)
      (by rw [List.length_append, List.length_singleton]; omega)
    have hlen : 0 < fs.length := List.length_pos_iff.mpr (by cases h <;> simp)
    refine ⟨ds, e, ?_, hne, by simpa using hds⟩
    rw [List.append_assoc, readFields_digits hd _ _ _ (by simpa using hfit.2.1), List.cons_append,
      List.nil_append, readFields, if_neg (by simp [hsd _ hc]), if_pos hc,
      if_pos ⟨hfit.1, by omega⟩, hread]

theorem readFields_iff (hbd : ∀ c, blank c = true → digit c = false)
    (hbs : ∀ c, blank c = true → sep c = false) (hsd : ∀ c, sep c = true → digit c = false)
    (hmost : 0 < most) {s : List α} {fs : List (List α)} :
    (∃ ds d, readFields digit sep blank room most [] [] s = some (ds, d) ∧ d ≠ [] ∧
      ds ++ [d] = fs) ↔
    ∃ t pad, s = t ++ pad ∧ Split digit sep t fs ∧ (∀ c ∈ pad, blank c = true) ∧
      Fit room 0 fs ∧ fs.length ≤ most := by
  constructor
  · rintro ⟨ds, d, h, hne, rfl⟩
    obtain ⟨t, pad, gs, hs, hpad, hgs, heq, hfit, hle⟩ :=
      readFields_sound (by simp) (by simp) hmost h hne
    rw [heq]
    exact ⟨t, pad, hs, hgs, hpad, hfit, by simpa using hle⟩
  · rintro ⟨t, pad, rfl, h, hpad, hfit, hle⟩
    exact readFields_complete hbd hbs hsd h [] hpad hfit (by simpa using hle)

end Split

end Fields
end MiniDos
