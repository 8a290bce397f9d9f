import Mathlib.Data.List.Basic
import Mathlib.Data.List.DropRight

/-!
# MiniDos.Lib.Ring

Ring buffers.

* `Ring`: one slot is always free, and a push into a full ring is dropped. `Ring.contents`: what is
  queued, the oldest first. `Ring.contents_push`, `Ring.contents_pop`: it is a queue.
* `Latest`: a push into a full one overwrites the oldest entry. `Latest.contents_push`,
  `Latest.contents_foldl`: it holds the last `n` of all that was pushed.
-/

namespace MiniDos

/-- `n` slots; `head`: the next one to be written. `tail`: the next one to be read. -/
structure Ring (α : Type) (n : Nat) where
  slots : Nat → α
  head : Nat
  tail : Nat
  head_lt : head < n
  tail_lt : tail < n

namespace Ring

/-! ## Distances -/

/-- The slots from `tail` up to `head`. -/
def gap (n head tail : Nat) : Nat := (head + n - tail) % n

variable {α : Type} {n head tail : Nat}

theorem mod_of_lt_twice {a : Nat} (h : a < 2 * n) : a % n = if a < n then a else a - n := by
  split
  · rename_i hlt
    exact Nat.mod_eq_of_lt hlt
  · rename_i hge
    rw [Nat.mod_eq_sub_mod (by omega), Nat.mod_eq_of_lt (by omega)]

theorem gap_eq (hh : head < n) (ht : tail < n) :
    gap n head tail = if tail ≤ head then head - tail else head + n - tail := by
  unfold gap
  rw [mod_of_lt_twice (by omega)]
  split <;> split <;> omega

theorem gap_lt (hh : head < n) : gap n head tail < n := Nat.mod_lt _ (by omega)

theorem gap_succ_head (hh : head < n) (ht : tail < n) (hroom : gap n head tail + 1 ≠ n) :
    gap n ((head + 1) % n) tail = gap n head tail + 1 := by
  have hlt : (head + 1) % n < n := Nat.mod_lt _ (by omega)
  rw [gap_eq hh ht] at hroom
  rw [gap_eq hh ht, gap_eq hlt ht, mod_of_lt_twice (by omega)]
  split at hroom <;> split <;> split <;> omega

theorem gap_succ_tail (hh : head < n) (ht : tail < n) (hne : tail ≠ head) :
    gap n head tail = gap n head ((tail + 1) % n) + 1 := by
  have hlt : (tail + 1) % n < n := Nat.mod_lt _ (by omega)
  rw [gap_eq hh ht, gap_eq hh hlt, mod_of_lt_twice (by omega)]
  split <;> split <;> split <;> omega

theorem gap_eq_zero_iff (hh : head < n) (ht : tail < n) : gap n head tail = 0 ↔ tail = head := by
  rw [gap_eq hh ht]
  split <;> omega

theorem succ_eq_tail_iff (hh : head < n) (ht : tail < n) :
    (head + 1) % n = tail ↔ gap n head tail + 1 = n := by
  rw [gap_eq hh ht, mod_of_lt_twice (by omega)]
  split <;> split <;> omega

theorem tail_add_gap (hh : head < n) (ht : tail < n) : (tail + gap n head tail) % n = head := by
  have hlt : gap n head tail < n := gap_lt hh
  rw [mod_of_lt_twice (by omega), gap_eq hh ht]
  split <;> split <;> omega

theorem slot_ne_head (hh : head < n) (ht : tail < n) {i : Nat} (hi : i < gap n head tail) :
    (tail + i) % n ≠ head := by
  have hlt : gap n head tail < n := gap_lt hh
  rw [mod_of_lt_twice (by omega)]
  rw [gap_eq hh ht] at hi
  split at hi <;> split <;> omega

/-! ## The ring -/

variable (r : Ring α n)

def count : Nat := gap n r.head r.tail

def contents : List α := (List.range r.count).map (fun i => r.slots ((r.tail + i) % n))

def push (c : α) : Ring α n :=
  if (r.head + 1) % n = r.tail then r
  else
    { r with
      slots := fun i => if i = r.head then c else r.slots i
      head := (r.head + 1) % n
      head_lt := Nat.mod_lt _ (Nat.lt_of_le_of_lt (Nat.zero_le _) r.head_lt) }

def pop : Option (α × Ring α n) :=
  if r.tail = r.head then none
  else
    some (r.slots r.tail,
      { r with
        tail := (r.tail + 1) % n
        tail_lt := Nat.mod_lt _ (Nat.lt_of_le_of_lt (Nat.zero_le _) r.tail_lt) })

/-- A push is dropped. -/
def Full : Prop := r.count + 1 = n

instance : Decidable r.Full := inferInstanceAs (Decidable (_ = _))

theorem contents_length : r.contents.length = r.count := by simp [contents]

theorem contents_eq_nil_iff : r.contents = [] ↔ r.tail = r.head := by
  rw [← List.length_eq_zero_iff, contents_length]
  exact gap_eq_zero_iff r.head_lt r.tail_lt

theorem push_of_full (h : r.Full) (c : α) : r.push c = r :=
  if_pos ((succ_eq_tail_iff r.head_lt r.tail_lt).mpr h)

theorem contents_push (h : ¬ r.Full) (c : α) : (r.push c).contents = r.contents ++ [c] := by
  have hne : ¬ (r.head + 1) % n = r.tail :=
    fun he => h ((succ_eq_tail_iff r.head_lt r.tail_lt).mp he)
  unfold push
  rw [if_neg hne]
  unfold contents count
  dsimp only
  rw [gap_succ_head r.head_lt r.tail_lt h, List.range_succ, List.map_append, List.map_singleton,
    tail_add_gap r.head_lt r.tail_lt, if_pos rfl]
  congr 1
  refine List.map_congr_left (fun i hi => if_neg ?_)
  exact slot_ne_head r.head_lt r.tail_lt (List.mem_range.mp hi)

theorem contents_pop {c : α} {r' : Ring α n} (h : r.pop = some (c, r')) :
    r.contents = c :: r'.contents := by
  unfold pop at h
  split at h
  · cases h
  rename_i hne
  cases h
  unfold contents count
  dsimp only
  rw [gap_succ_tail r.head_lt r.tail_lt hne, List.range_succ_eq_map, List.map_cons, List.map_map,
    Nat.add_zero, Nat.mod_eq_of_lt r.tail_lt]
  congr 1
  refine List.map_congr_left (fun i _ => ?_)
  show r.slots ((r.tail + (i + 1)) % n) = r.slots (((r.tail + 1) % n + i) % n)
  rw [Nat.mod_add_mod, Nat.add_assoc, Nat.add_comm 1 i]

theorem contents_of_pop_none (h : r.pop = none) : r.contents = [] := by
  unfold pop at h
  split at h
  · rename_i heq
    exact r.contents_eq_nil_iff.mpr heq
  · cases h

end Ring

/-- `n` slots; `head`: the next one to be written. `count`: how many have been, up to `n`. -/
structure Latest (α : Type) (n : Nat) where
  slots : Nat → α
  head : Nat
  count : Nat
  head_lt : head < n
  count_le : count ≤ n

namespace Latest

variable {α : Type} {n : Nat} (r : Latest α n)

/-- The slot of the oldest entry. -/
def start : Nat := (r.head + n - r.count) % n

def contents : List α := (List.range r.count).map (fun i => r.slots ((r.start + i) % n))

def push (c : α) : Latest α n :=
  { slots := fun i => if i = r.head then c else r.slots i
    head := (r.head + 1) % n
    count := if r.count < n then r.count + 1 else r.count
    head_lt := Nat.mod_lt _ (Nat.lt_of_le_of_lt (Nat.zero_le _) r.head_lt)
    count_le := by
      have := r.count_le
      split <;> omega }

/-- The same slots with nothing in them. -/
def clear : Latest α n :=
  { slots := r.slots
    head := 0
    count := 0
    head_lt := Nat.lt_of_le_of_lt (Nat.zero_le _) r.head_lt
    count_le := Nat.zero_le _ }

@[simp] theorem contents_clear : r.clear.contents = [] := rfl

@[simp] theorem contents_length : r.contents.length = r.count := by simp [contents]

theorem contents_eq_nil_iff : r.contents = [] ↔ r.count = 0 := by
  rw [← List.length_eq_zero_iff, contents_length]

theorem start_eq : r.start = if r.count ≤ r.head then r.head - r.count else r.head + n - r.count := by
  have hlt := r.head_lt
  have hle := r.count_le
  unfold start
  rw [Ring.mod_of_lt_twice (by omega)]
  split <;> split <;> omega

theorem start_lt : r.start < n := Nat.mod_lt _ (Nat.lt_of_le_of_lt (Nat.zero_le _) r.head_lt)

theorem start_add_count : (r.start + r.count) % n = r.head := by
  have hlt := r.head_lt
  have hle := r.count_le
  have hs := r.start_lt
  rw [r.start_eq] at hs ⊢
  by_cases h : r.count ≤ r.head
  · rw [if_pos h, Nat.sub_add_cancel h, Nat.mod_eq_of_lt hlt]
  · rw [if_neg h, Nat.sub_add_cancel (by omega), Nat.add_mod_right, Nat.mod_eq_of_lt hlt]

theorem start_push_of_lt (h : r.count < n) (c : α) : (r.push c).start = r.start := by
  have hlt := r.head_lt
  rw [start_eq, start_eq]
  simp only [push, if_pos h]
  rw [Ring.mod_of_lt_twice (by omega)]
  split <;> split <;> split <;> omega

theorem start_push_of_full (h : r.count = n) (c : α) : (r.push c).start = (r.start + 1) % n := by
  have hlt := r.head_lt
  rw [start_eq, start_eq]
  simp only [push, h, Nat.lt_irrefl, if_false]
  rw [Ring.mod_of_lt_twice (by omega), Ring.mod_of_lt_twice (by split <;> omega)]
  split <;> split <;> split <;> split <;> omega

theorem slot_ne_head {i : Nat} (hi : i < r.count) (hroom : r.count < n ∨ 0 < i) :
    (r.start + i) % n ≠ r.head := by
  have hlt := r.head_lt
  have hle := r.count_le
  have hs := r.start_lt
  rw [Ring.mod_of_lt_twice (by omega)]
  rw [r.start_eq]
  split <;> split <;> omega

theorem contents_push_of_lt (h : r.count < n) (c : α) : (r.push c).contents = r.contents ++ [c] := by
  have hcount : (r.push c).count = r.count + 1 := if_pos h
  unfold contents
  rw [hcount, r.start_push_of_lt h, List.range_succ, List.map_append, List.map_singleton]
  congr 1
  · exact List.map_congr_left (fun i hi => if_neg (r.slot_ne_head (List.mem_range.mp hi) (.inl h)))
  · exact congrArg (· :: []) (if_pos r.start_add_count)

theorem contents_push_of_full (h : r.count = n) (c : α) : (r.push c).contents = r.contents.tail ++ [c] := by
  obtain ⟨m, hm⟩ : ∃ m, r.count = m + 1 := ⟨r.count - 1, by have := r.head_lt; omega⟩
  have hcount : (r.push c).count = m + 1 := by
    simp only [push, h, Nat.lt_irrefl, if_false]
    rw [← h, hm]
  have htail : r.contents.tail = (List.range m).map (fun i => r.slots ((r.start + (i + 1)) % n)) := by
    rw [contents, hm, List.range_succ_eq_map, List.map_cons, List.tail_cons, List.map_map]
    rfl
  rw [htail, contents, hcount, List.range_succ, List.map_append, List.map_singleton]
  have hslot : ∀ i, ((r.push c).start + i) % n = (r.start + (i + 1)) % n := by
    intro i
    rw [r.start_push_of_full h, Nat.mod_add_mod, Nat.add_assoc, Nat.add_comm 1 i]
  congr 1
  · refine List.map_congr_left (fun i hi => ?_)
    have hi := List.mem_range.mp hi
    rw [hslot]
    exact if_neg (r.slot_ne_head (by omega) (.inr (Nat.succ_pos i)))
  · rw [hslot, ← hm]
    exact congrArg (· :: []) (if_pos r.start_add_count)

theorem contents_push (c : α) : (r.push c).contents = (r.contents ++ [c]).rtake n := by
  have hle := r.count_le
  unfold List.rtake
  rw [List.length_append, contents_length, List.length_singleton]
  by_cases h : r.count < n
  · rw [r.contents_push_of_lt h, Nat.sub_eq_zero_of_le h, List.drop_zero]
  · have hfull : r.count = n := Nat.le_antisymm hle (Nat.not_lt.mp h)
    have hpos : 0 < r.contents.length := by
      rw [contents_length, hfull]
      exact Nat.lt_of_le_of_lt (Nat.zero_le _) r.head_lt
    rw [r.contents_push_of_full hfull, hfull, Nat.add_sub_cancel_left, List.drop_append_of_le_length hpos,
      List.drop_one]

theorem rtake_rtake_append (l m : List α) : (l.rtake n ++ m).rtake n = (l ++ m).rtake n := by
  simp only [List.rtake_eq_reverse_take_reverse, List.reverse_append, List.reverse_reverse, List.take_append,
    List.take_take]
  congr 3
  omega

theorem getLast?_rtake (hn : 0 < n) (l : List α) : (l.rtake n).getLast? = l.getLast? := by
  rw [List.rtake, List.getLast?_drop]
  split
  · rename_i h
    rw [eq_comm, List.getLast?_eq_none_iff, ← List.length_eq_zero_iff]
    omega
  · rfl

theorem contents_foldl (cs : List α) : (cs.foldl push r).contents = (r.contents ++ cs).rtake n := by
  induction cs generalizing r with
  | nil =>
    have hle := r.count_le
    unfold List.rtake
    rw [List.append_nil, contents_length, Nat.sub_eq_zero_of_le hle, List.drop_zero]
    rfl
  | cons c cs ih =>
    rw [List.foldl_cons, ih, contents_push, rtake_rtake_append, List.append_assoc]
    rfl

theorem last_contents (h : r.contents ≠ []) : r.contents.getLast? = some (r.slots ((r.head + n - 1) % n)) := by
  have hlt := r.head_lt
  have hle := r.count_le
  have hs := r.start_lt
  have hpos : 0 < r.count := Nat.pos_of_ne_zero (fun h0 => h (r.contents_eq_nil_iff.mpr h0))
  have hslot : (r.start + (r.count - 1)) % n = (r.head + n - 1) % n := by
    rw [r.start_eq] at hs ⊢
    rw [Ring.mod_of_lt_twice (by omega), Ring.mod_of_lt_twice (by omega)]
    split <;> split <;> split <;> omega
  rw [List.getLast?_eq_getElem?, contents_length, contents, List.getElem?_map,
    List.getElem?_range (by omega), Option.map_some, hslot]

end Latest
end MiniDos
