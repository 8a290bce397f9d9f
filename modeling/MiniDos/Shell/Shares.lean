import Mathlib.Algebra.Order.BigOperators.Group.List
import MiniDos.Lib.Ratio
import MiniDos.Sched.Runtime
import MiniDos.Fat.Name

/-!
# MiniDos.Shell.Shares

The processor shares that `ps` and `top` print, `shell_builtin_process.inc`. `ps` divides the
counters of one snapshot by their sum. `top` divides differences of two snapshots, and takes them
row by row: the entry of the first snapshot at the same place of the table, whoever that was.
-/

namespace MiniDos
namespace Shares

open Sched Fat16 Transition

/-- `sizeof(snaps) / sizeof(snaps[0])`. -/
def snapRows : Nat := 16

/-- The sum over the rows, in 32 bits. -/
def totalTicks (deltas : List UInt32) : UInt32 := deltas.foldl (· + ·) 0

/-- `cpu_tenths` of a row. -/
def cpuTenths (total delta : UInt32) : UInt32 :=
  if 0 < total then (delta * 1000 + total / 2) / total else 0

/-- A row of the table, as `shell_builtin_print_process_row` is given it. -/
abbrev Row := Snapshot × UInt32

def table (snaps : List Snapshot) (deltas : List UInt32) : List Row :=
  snaps.zip (deltas.map (cpuTenths (totalTicks deltas)))

inductive Shown where
  | usage
  | noTasks
  | rows (table : List Row)

def Shown.table : Shown → List Row
  | .rows table => table
  | _ => []

def psDeltas (snaps : List Snapshot) : List UInt32 := snaps.map Snapshot.runtimeTicks

/-- `shell_builtin_cmd_ps`. -/
def cmdPs (args : CStr) (s : State) : Shown :=
  if args ≠ [] then .usage
  else
    let snaps := snapshotProcesses s snapRows false
    if snaps.length = 0 then .noTasks else .rows (table snaps (psDeltas snaps))

/-- `before_ticks` once the first snapshot is taken; `stale` is what the array held before, of the
sample before this one or of the stack. -/
def beforeTicks (stale : Nat → UInt32) (before : List Snapshot) (i : Nat) : UInt32 :=
  (before[i]?.map Snapshot.runtimeTicks).getD (stale i)

def topDeltas (stale : Nat → UInt32) (before after : List Snapshot) : List UInt32 :=
  after.mapIdx fun i snap => snap.runtimeTicks - beforeTicks stale before i

/-- One sample of `shell_builtin_cmd_top`: the scheduler as the first snapshot finds it, and as it
is behind the sleep. -/
def topSample (stale : Nat → UInt32) (s₁ s₂ : State) : List Row :=
  let before := snapshotProcesses s₁ snapRows false
  let after := snapshotProcesses s₂ snapRows false
  table after (topDeltas stale before after)

/-! ## The figures that are meant -/

/-- The share of `d` in `t`, in tenths of a percent. -/
def share (d t : Nat) : Int := round ((1000 * d : Nat) / t : Rat)

/-- The rows of the table are the tasks of `s`, each with the share of its own `increase`; the
differences that the code works with are these increases, and nothing it computes from them
overflows. -/
structure Right (s : State) (increase : Nat → Nat) (deltas : List UInt32) (shown : List Row) :
    Prop where
  own : deltas.map UInt32.toNat = (rows s).map increase
  shares : shown.map (fun row => (row.1, (row.2.toNat : Int))) =
    (rows s).map fun i => (snapOf s i, share (increase i) ((rows s).map increase).sum)
  most : ∀ row ∈ shown, row.2 ≤ 1000
  sum : (deltas.map UInt32.toNat).sum < 2 ^ 32
  products : ∀ d ∈ deltas, d.toNat * 1000 + (totalTicks deltas).toNat / 2 < 2 ^ 32

/-- The interval is short enough for 32 bits. -/
def Fits (s : State) (increase : Nat → Nat) : Prop :=
  ∀ i ∈ rows s, 1000 * increase i + ((rows s).map increase).sum / 2 < 2 ^ 32

/-- The entry that stands at the place of a row is one with the counter that the row's own task had:
`base`, for the slot of the row. -/
def Paired (stale : Nat → UInt32) (s₁ s₂ : State) (base : Nat → Nat) : Prop :=
  ∀ k (h : k < (rows s₂).length),
    beforeTicks stale ((rows s₁).map (snapOf s₁)) k = UInt32.ofNat (base (rows s₂)[k])

/-! ## The arithmetic -/

theorem foldl_toNat (deltas : List UInt32) : ∀ total : UInt32,
    (deltas.foldl (· + ·) total).toNat =
      (total.toNat + (deltas.map UInt32.toNat).sum) % 2 ^ 32 := by
  induction deltas with
  | nil =>
    intro total
    simp [Nat.mod_eq_of_lt total.toNat_lt]
  | cons d deltas ih =>
    intro total
    rw [List.foldl_cons, ih, UInt32.toNat_add, Nat.mod_add_mod, List.map_cons, List.sum_cons,
      Nat.add_assoc]

theorem totalTicks_toNat {deltas : List UInt32} (h : (deltas.map UInt32.toNat).sum < 2 ^ 32) :
    (totalTicks deltas).toNat = (deltas.map UInt32.toNat).sum := by
  rw [totalTicks, foldl_toNat, UInt32.toNat_zero, Nat.zero_add, Nat.mod_eq_of_lt h]

theorem thousand : (1000 : UInt32).toNat = 1000 := by decide

theorem cpuTenths_toNat {total delta : UInt32}
    (h : delta.toNat * 1000 + total.toNat / 2 < 2 ^ 32) :
    ((cpuTenths total delta).toNat : Int) = share delta.toNat total.toNat := by
  have hround := Ratio.rounded_div (1000 * delta.toNat) total.toNat
  rw [share, ← hround, Nat.mul_comm 1000]
  by_cases hpos : 0 < total
  · have hsmall : delta.toNat * 1000 < 2 ^ 32 := Nat.lt_of_le_of_lt (Nat.le_add_right _ _) h
    have hmul : (delta * 1000).toNat = delta.toNat * 1000 := by
      rw [UInt32.toNat_mul, thousand, Nat.mod_eq_of_lt hsmall]
    rw [cpuTenths, if_pos hpos, UInt32.toNat_div, UInt32.toNat_add, hmul, UInt32.toNat_div,
      show (2 : UInt32).toNat = 2 from rfl, Nat.mod_eq_of_lt h]
  · have hzero : total = 0 := by
      simpa using hpos
    rw [cpuTenths, if_neg hpos, hzero]
    simp

theorem share_le {d t : Nat} (h : d ≤ t) : share d t ≤ 1000 := by
  rw [share, ← Ratio.rounded_div]
  obtain rfl | ht := Nat.eq_zero_or_pos t
  · simp
  · have hlt : (1000 * d + t / 2) / t < 1001 := (Nat.div_lt_iff_lt_mul ht).mpr (by omega)
    omega

theorem sum_lt {ds : List Nat} (hlen : ds.length ≤ 1000)
    (h : ∀ d ∈ ds, 1000 * d + ds.sum / 2 < 2 ^ 32) : ds.sum < 2 ^ 32 := by
  have hsum : ds.sum ≤ ds.length * ((2 ^ 32 - 1) / 1000) := by
    refine List.sum_le_card_nsmul ds ((2 ^ 32 - 1) / 1000) fun d hd => ?_
    have := h d hd
    omega
  have hmul : ds.length * ((2 ^ 32 - 1) / 1000) ≤ 1000 * ((2 ^ 32 - 1) / 1000) :=
    Nat.mul_le_mul_right _ hlen
  omega

/-! ## When the figures are right -/

section Figures

variable {s : State} {increase : Nat → Nat} {deltas : List UInt32}

theorem Fits.sum (h : Fits s increase) : ((rows s).map increase).sum < 2 ^ 32 := by
  refine sum_lt ?_ ?_
  · rw [List.length_map]
    exact Nat.le_trans (rows_length s) (by decide)
  · intro d hd
    obtain ⟨i, hi, rfl⟩ := List.mem_map.mp hd
    exact h i hi

theorem Fits.increase_lt (h : Fits s increase) {i : Nat} (hi : i ∈ rows s) : increase i < 2 ^ 32 := by
  have := h i hi
  omega

/-- Where the differences are the increases the rest is a matter of size. -/
theorem right_iff : Right s increase deltas (table ((rows s).map (snapOf s)) deltas) ↔
    deltas.map UInt32.toNat = (rows s).map increase ∧ Fits s increase := by
  constructor
  · intro h
    refine ⟨h.own, fun i hi => ?_⟩
    have hmem : increase i ∈ deltas.map UInt32.toNat := by
      rw [h.own]
      exact List.mem_map_of_mem hi
    obtain ⟨d, hd, hdi⟩ := List.mem_map.mp hmem
    have hproduct := h.products d hd
    rw [totalTicks_toNat h.sum, h.own, hdi] at hproduct
    omega
  · rintro ⟨hown, hfits⟩
    have hsum : (deltas.map UInt32.toNat).sum < 2 ^ 32 := hown ▸ hfits.sum
    have htotal := totalTicks_toNat hsum
    have hproducts : ∀ d ∈ deltas, d.toNat * 1000 + (totalTicks deltas).toNat / 2 < 2 ^ 32 := by
      intro d hd
      have hmem : d.toNat ∈ (rows s).map increase := hown ▸ List.mem_map_of_mem hd
      obtain ⟨i, hi, hdi⟩ := List.mem_map.mp hmem
      have hfit := hfits i hi
      rw [htotal, hown, ← hdi]
      omega
    have hfigure : ∀ d ∈ deltas, ((cpuTenths (totalTicks deltas) d).toNat : Int) =
        share d.toNat ((rows s).map increase).sum := by
      intro d hd
      rw [cpuTenths_toNat (hproducts d hd), htotal, hown]
    refine ⟨hown, ?_, ?_, hsum, hproducts⟩
    · have hlen : deltas.length = (rows s).length := by
        simpa using congrArg List.length hown
      refine List.ext_getElem (by simp [table, hlen]) fun k hk hk' => ?_
      have hkr : k < (rows s).length := by simpa using hk'
      have hkd : k < deltas.length := hlen ▸ hkr
      have hat : deltas[k].toNat = increase (rows s)[k] := by
        have := List.getElem_of_eq hown (i := k) (by simpa using hkd)
        simpa using this
      simp only [table, List.getElem_map, List.getElem_zip, hfigure _ (List.getElem_mem hkd), hat]
    · intro row hrow
      obtain ⟨d, hd, hrow⟩ := List.mem_map.mp (List.of_mem_zip hrow).2
      have hle : d.toNat ≤ ((rows s).map increase).sum :=
        List.le_sum_of_mem (hown ▸ List.mem_map_of_mem hd)
      have := share_le hle
      rw [← hfigure d hd, hrow] at this
      rw [UInt32.le_iff_toNat_le, thousand]
      omega

end Figures

theorem ps_right_iff (s : State) :
    Right s s.runtime (psDeltas (snapshotProcesses s snapRows false)) (cmdPs [] s).table ↔
      Fits s s.runtime := by
  have hsnaps := snapshotProcesses_eq s (show maxProcesses ≤ snapRows by decide)
  have htable : (cmdPs [] s).table = table ((rows s).map (snapOf s))
      (psDeltas ((rows s).map (snapOf s))) := by
    simp only [cmdPs, hsnaps]
    cases hrows : rows s with
    | nil => rfl
    | cons i is => rfl
  rw [htable, hsnaps, right_iff]
  refine ⟨fun h => h.2, fun h => ⟨?_, h⟩⟩
  simp only [psDeltas, List.map_map]
  refine List.map_congr_left fun i hi => ?_
  exact Nat.mod_eq_of_lt (h.increase_lt hi)

theorem sub_toNat_iff {now base : Nat} {recorded : UInt32} (hle : base ≤ now)
    (hlt : now - base < 2 ^ 32) :
    (UInt32.ofNat now - recorded).toNat = now - base ↔ recorded = UInt32.ofNat base := by
  have hsplit : UInt32.ofNat now = UInt32.ofNat (now - base) + UInt32.ofNat base := by
    rw [← UInt32.ofNat_add, Nat.sub_add_cancel hle]
  have hsmall : (UInt32.ofNat (now - base)).toNat = now - base := Nat.mod_eq_of_lt hlt
  constructor
  · intro h
    have heq : UInt32.ofNat now - recorded = UInt32.ofNat (now - base) :=
      UInt32.toNat_inj.mp (h.trans hsmall.symm)
    rw [hsplit] at heq
    grind
  · rintro rfl
    rw [hsplit, UInt32.add_sub_cancel, hsmall]

variable {s₁ s₂ : State} {es : List Event} {base : Nat → Nat}

theorem top_right_iff (h : RunsSince s₁ es s₂ base) (stale : Nat → UInt32) :
    Right s₂ (fun i => s₂.runtime i - base i)
        (topDeltas stale (snapshotProcesses s₁ snapRows false) (snapshotProcesses s₂ snapRows false))
        (topSample stale s₁ s₂) ↔
      Paired stale s₁ s₂ base ∧ Fits s₂ (fun i => s₂.runtime i - base i) := by
  have hroom : maxProcesses ≤ snapRows := by decide
  simp only [topSample, snapshotProcesses_eq _ hroom]
  rw [right_iff]
  refine and_congr_left fun hfits => ?_
  have hat : ∀ k (hk : k < (rows s₂).length),
      ((UInt32.ofNat (s₂.runtime (rows s₂)[k]) -
          beforeTicks stale ((rows s₁).map (snapOf s₁)) k).toNat =
        s₂.runtime (rows s₂)[k] - base (rows s₂)[k] ↔
      beforeTicks stale ((rows s₁).map (snapOf s₁)) k = UInt32.ofNat (base (rows s₂)[k])) := by
    intro k hk
    exact sub_toNat_iff (h.base_le _) (hfits.increase_lt (List.getElem_mem hk))
  constructor
  · intro hown k hk
    have hkth := List.getElem_of_eq hown (i := k) (by simpa [topDeltas] using hk)
    exact (hat k hk).mp (by simpa [topDeltas, snapOf] using hkth)
  · intro hpaired
    refine List.ext_getElem (by simp [topDeltas]) fun k hk hk' => ?_
    have hkr : k < (rows s₂).length := by simpa using hk'
    have hkth := (hat k hkr).mpr (hpaired k hkr)
    simpa [topDeltas, snapOf] using hkth

/-- The shares of `ps` and `top` at the end of a run: those of `ps` are right when the counters are
small enough, those of `top` when each row is paired with its own task besides. -/
theorem shares_right_iff (h : RunsSince s₁ es s₂ base) (stale : Nat → UInt32) :
    (Right s₂ s₂.runtime (psDeltas (snapshotProcesses s₂ snapRows false)) (cmdPs [] s₂).table ↔
      Fits s₂ s₂.runtime) ∧
    (Right s₂ (fun i => s₂.runtime i - base i)
        (topDeltas stale (snapshotProcesses s₁ snapRows false) (snapshotProcesses s₂ snapRows false))
        (topSample stale s₁ s₂) ↔
      Paired stale s₁ s₂ base ∧ Fits s₂ (fun i => s₂.runtime i - base i)) :=
  ⟨ps_right_iff s₂, top_right_iff h stale⟩

/-- Two ticks of the boot task, and both commands show 100% for it. -/
theorem shares_right_booting : ∃ s₂ base,
    RunsSince (runtimeInit 50 0) [.tick 60, .tick 60] s₂ base ∧
      Right s₂ s₂.runtime (psDeltas (snapshotProcesses s₂ snapRows false)) (cmdPs [] s₂).table ∧
      Right s₂ (fun i => s₂.runtime i - base i)
        (topDeltas (fun _ => 7) (snapshotProcesses (runtimeInit 50 0) snapRows false)
          (snapshotProcesses s₂ snapRows false))
        (topSample (fun _ => 7) (runtimeInit 50 0) s₂) := by
  have hrun : ∃ s₂ base, RunsSince (runtimeInit 50 0) [.tick 60, .tick 60] s₂ base ∧
      Fits s₂ s₂.runtime ∧ Paired (fun _ => 7) (runtimeInit 50 0) s₂ base ∧
      Fits s₂ (fun i => s₂.runtime i - base i) := by
    refine ⟨_, _, rfl, ?_⟩
    unfold Fits Paired
    decide +kernel
  obtain ⟨s₂, base, h, hps, hpaired, htop⟩ := hrun
  have hiff := shares_right_iff h fun _ => 7
  exact ⟨s₂, base, h, hiff.1.mpr hps, hiff.2.mpr ⟨hpaired, htop⟩⟩

def twoTasks : List Event :=
  [.spawn 60 none 3, .spawn 70 none 3, .yield 80, .yield 60, .tick 70, .yield 70]

/-- The first of two tasks ends: the other one moves up to its place, and is charged with all it
ever ran. -/
theorem ended_shifts_rows : ∃ s₁ s₂ base, run step (runtimeInit 50 0) twoTasks = some s₁ ∧
    RunsSince s₁ [.terminate 3] s₂ base ∧
    (∀ i, s₂.runtime i - base i = 0) ∧
    (topSample (fun _ => 0) s₁ s₂).map (fun row => (row.1.pid, row.2)) = [(0, 0), (1, 0), (4, 1000)] ∧
    share 0 0 = 0 ∧
    ¬ Right s₂ (fun i => s₂.runtime i - base i)
      (topDeltas (fun _ => 0) (snapshotProcesses s₁ snapRows false)
        (snapshotProcesses s₂ snapRows false))
      (topSample (fun _ => 0) s₁ s₂) := by
  refine ⟨_, _, _, rfl, rfl, ?_, ?_, ?_, ?_⟩
  · intro i
    exact Nat.sub_eq_zero_of_le (Nat.le_of_eq (runtime_terminateProcess _ i 3))
  · decide +kernel
  · decide +kernel
  · exact fun h => absurd h.own (by decide +kernel)

end Shares
end MiniDos
