import Mathlib.Algebra.BigOperators.Intervals
import MiniDos.Lib.Halting
import MiniDos.Shell.Clock

/-!
# MiniDos.Time.Rtc

`rtc_read_time` and `rtc_read_date` (`rtc.c`), over whatever the registers of the clock return.

* `doublePass_again_iff`: when a round of the loop is followed by another one.
* `doubleRead_ends_iff`: the loop comes back unless every round disagrees and few checks find an
  update.
* `rtcRead_fields`: where the fields come from.
* `rtcRead_iff`: the two together.
-/

namespace MiniDos
namespace Rtc

open Args

/-- What the `n`-th access to the clock returns, by register. -/
abbrev Cmos := Nat → UInt8 → UInt8

def isUpdating (cmos : Cmos) (n : Nat) : Bool := cmos n 0x0A &&& 0x80 != 0

/-- One register after another, from access `n` on. -/
def readRegs (cmos : Cmos) : Nat → List UInt8 → List UInt8
  | _, [] => []
  | n, reg :: regs => cmos n reg :: readRegs cmos (n + 1) regs

/-! ## The loop -/

def safetyLimit : Nat := 100000

/-- `while (rtc_is_updating() && --safety > 0) { }`: `safety` and the next access. -/
def waitWhileUpdating (cmos : Cmos) : Nat → Nat → Nat × Nat
  | 0, n => (0, n + 1)
  | safety + 1, n =>
    if isUpdating cmos n then
      if 0 < safety then waitWhileUpdating cmos safety (n + 1) else (safety, n + 1)
    else (safety + 1, n + 1)

inductive Pass where
  /-- It returns 0. -/
  | giveUp
  | again (safety n : Nat)
  | agree (values : List UInt8) (statusB : UInt8)
  deriving DecidableEq

/-- The body of the loop over the registers `regs`, and its condition. -/
def doublePass (cmos : Cmos) (regs : List UInt8) (safety n : Nat) : Pass :=
  let w := waitWhileUpdating cmos safety n
  if w.1 = 0 then .giveUp
  else
    let values1 := readRegs cmos w.2 regs
    let statusB := cmos (w.2 + regs.length) 0x0B
    let w' := waitWhileUpdating cmos w.1 (w.2 + regs.length + 1)
    if w'.1 = 0 then .giveUp
    else
      let values2 := readRegs cmos w'.2 regs
      if values1 ≠ values2 ∧ 0 < w'.1 then .again w'.1 (w'.2 + regs.length)
      else .agree values2 statusB

/-- `none`: it has not come back after `fuel` rounds; `some none`: it returns 0. -/
def doubleRead (cmos : Cmos) (regs : List UInt8) :
    Nat → Nat → Nat → Option (Option (List UInt8 × UInt8))
  | 0, _, _ => none
  | fuel + 1, safety, n =>
    match doublePass cmos regs safety n with
    | .giveUp => some none
    | .again safety n => doubleRead cmos regs fuel safety n
    | .agree values statusB => some (some (values, statusB))

/-! ## The fields -/

def bcdToBin (bcd : UInt8) : UInt8 := (bcd >>> 4) * 10 + (bcd &&& 0x0F)

def isLeapYear (year : UInt16) : Bool :=
  if year % 400 = 0 then true
  else if year % 100 = 0 then false
  else year % 4 == 0

def monthDays : List Nat := [31, 28, 31, 30, 31, 30, 31, 31, 30, 31, 30, 31]

def daysInMonth (year : UInt16) (month : UInt8) : Nat :=
  if month < 1 ∨ 12 < month then 0
  else if month = 2 ∧ isLeapYear year then 29
  else monthDays.getD (month.toNat - 1) 0

/-- `seconds`, `minutes` and `hours`, in that order. -/
def timeRegs : List UInt8 := [0x00, 0x02, 0x04]

def decodeTime (values : List UInt8) (statusB : UInt8) : Option RtcTime :=
  let seconds := values.getD 0 0
  let minutes := values.getD 1 0
  let hours := values.getD 2 0
  let bcd := statusB &&& 0x04 = 0
  let seconds := if bcd then bcdToBin seconds else seconds
  let minutes := if bcd then bcdToBin minutes else minutes
  let hours := if bcd then bcdToBin (hours &&& 0x7F) ||| (hours &&& 0x80) else hours
  let hours :=
    if statusB &&& 0x02 = 0 then
      let pm := hours &&& 0x80 ≠ 0
      let hours := hours &&& 0x7F
      if pm ∧ hours < 12 then hours + 12
      else if ¬ pm ∧ hours = 12 then 0
      else hours
    else hours &&& 0x7F
  if 23 < hours ∨ 59 < minutes ∨ 59 < seconds then none
  else some { hours, minutes, seconds }

/-- `day`, `month`, `year` and `century`, in that order. -/
def dateRegs : List UInt8 := [0x07, 0x08, 0x09, 0x32]

def decodeDate (values : List UInt8) (statusB : UInt8) : Option RtcDate :=
  let decode (value : UInt8) : UInt8 := if statusB &&& 0x04 = 0 then bcdToBin value else value
  let day := decode (values.getD 0 0)
  let month := decode (values.getD 1 0)
  let year := decode (values.getD 2 0)
  let century := decode (values.getD 3 0)
  let fullYear : UInt16 :=
    if 19 ≤ century ∧ century ≤ 99 then century.toUInt16 * 100 + year.toUInt16
    else 2000 + year.toUInt16
  if month < 1 ∨ 12 < month then none
  else if day < 1 ∨ daysInMonth fullYear month < day.toNat then none
  else some { year := fullYear, month, day }

/-- What `rtc_read_time` and `rtc_read_date` share; the result, and what `*out` then holds. -/
def rtcRead {α : Type} (regs : List UInt8) (decode : List UInt8 → UInt8 → Option α) (cmos : Cmos)
    (fuel : Nat) : Option α → Option (Bool × Option α)
  | none => some (false, none)
  | some out =>
    match doubleRead cmos regs fuel safetyLimit 0 with
    | none => none
    | some none => some (false, some out)
    | some (some (values, statusB)) =>
      match decode values statusB with
      | none => some (false, some out)
      | some fields => some (true, some fields)

def rtcReadTime : Cmos → Nat → Option RtcTime → Option (Bool × Option RtcTime) :=
  rtcRead timeRegs decodeTime

def rtcReadDate : Cmos → Nat → Option RtcDate → Option (Bool × Option RtcDate) :=
  rtcRead dateRegs decodeDate

/-! ## What the clock returns -/

/-- The checks from access `n` on find an update `k` times, and then none. -/
structure Waits (cmos : Cmos) (n k : Nat) : Prop where
  busy : ∀ i < k, isUpdating cmos (n + i)
  clear : ¬ isUpdating cmos (n + k)

def secondWait (regs : List UInt8) (n k : Nat) : Nat := n + k + 1 + regs.length + 1
def nextRound (regs : List UInt8) (n k l : Nat) : Nat :=
  secondWait regs n k + l + 1 + regs.length

/-- A round from access `n` on, with `k` and `l` reads that find an update, reads different values. -/
structure Disagrees (cmos : Cmos) (regs : List UInt8) (n k l : Nat) : Prop where
  first : Waits cmos n k
  second : Waits cmos (secondWait regs n k) l
  differ : readRegs cmos (n + k + 1) regs ≠ readRegs cmos (secondWait regs n k + l + 1) regs

/-- Round after round disagrees, and all of them together find an update less often than `safety`
allows. -/
def Endless (cmos : Cmos) (regs : List UInt8) : Prop :=
  ∃ start first second : Nat → Nat, start 0 = 0 ∧
    (∀ i, Disagrees cmos regs (start i) (first i) (second i) ∧
      start (i + 1) = nextRound regs (start i) (first i) (second i)) ∧
    ∀ i, ∑ j ∈ Finset.range i, (first j + second j) < safetyLimit

/-- Two reads of the same values, one after the other and each right after a check that found no
update, and what they decode to. -/
structure FromTwoReads {α : Type} (cmos : Cmos) (regs : List UInt8)
    (decode : List UInt8 → UInt8 → Option α) (fields : α) (n m : Nat) : Prop where
  clear1 : ¬ isUpdating cmos n
  next : n + 1 + regs.length + 1 ≤ m
  waits : ∀ i, n + 1 + regs.length + 1 ≤ i → i < m → isUpdating cmos i
  clear2 : ¬ isUpdating cmos m
  equal : readRegs cmos (n + 1) regs = readRegs cmos (m + 1) regs
  decoded : decode (readRegs cmos (n + 1) regs) (cmos (n + 1 + regs.length) 0x0B) = some fields

/-- A read comes back, and what it then reports is from two reads of the same values. -/
structure Sound {α : Type} (cmos : Cmos) (regs : List UInt8)
    (decode : List UInt8 → UInt8 → Option α) (read : Nat → Option (Bool × Option α)) : Prop where
  ends : ∃ fuel₀, ∀ fuel, fuel₀ ≤ fuel → (read fuel).isSome
  fields : ∀ fuel out, read fuel = some (true, out) →
    ∃ fields n m, out = some fields ∧ FromTwoReads cmos regs decode fields n m

/-! ## One round -/

section Loop

variable {cmos : Cmos} {regs : List UInt8}

theorem waits_succ {n k : Nat} (h : isUpdating cmos n) :
    Waits cmos n (k + 1) ↔ Waits cmos (n + 1) k := by
  have hadd : ∀ i, n + 1 + i = n + (i + 1) := fun i => by omega
  constructor
  · intro hw
    refine ⟨fun i hi => ?_, ?_⟩
    · rw [hadd]
      exact hw.busy _ (by omega)
    · rw [hadd]
      exact hw.clear
  · intro hw
    refine ⟨fun i hi => ?_, ?_⟩
    · cases i with
      | zero => exact h
      | succ i =>
        rw [← hadd]
        exact hw.busy i (by omega)
    · rw [← hadd]
      exact hw.clear

/-- What the wait leaves of `safety`, if it leaves anything. -/
theorem wait_iff : ∀ {safety n safety' n' : Nat},
    waitWhileUpdating cmos safety n = (safety', n') ∧ 0 < safety' ↔
      ∃ k, Waits cmos n k ∧ k < safety ∧ safety' = safety - k ∧ n' = n + k + 1 := by
  intro safety
  induction safety with
  | zero =>
    intro n safety' n'
    rw [waitWhileUpdating, Prod.mk.injEq]
    constructor
    · rintro ⟨⟨h, -⟩, h'⟩
      omega
    · rintro ⟨k, -, hk, -⟩
      omega
  | succ safety ih =>
    intro n safety' n'
    rw [waitWhileUpdating]
    by_cases hu : isUpdating cmos n
    · rw [if_pos hu]
      by_cases hs : 0 < safety
      · rw [if_pos hs, ih]
        constructor
        · rintro ⟨k, hw, hk, rfl, rfl⟩
          exact ⟨k + 1, (waits_succ hu).mpr hw, by omega, by omega, by omega⟩
        · rintro ⟨k, hw, hk, rfl, rfl⟩
          cases k with
          | zero => exact absurd hu hw.clear
          | succ k => exact ⟨k, (waits_succ hu).mp hw, by omega, by omega, by omega⟩
      · rw [if_neg hs, Prod.mk.injEq]
        constructor
        · rintro ⟨⟨h, -⟩, h'⟩
          omega
        · rintro ⟨k, hw, hk, -, -⟩
          obtain rfl : k = 0 := by omega
          exact absurd hu hw.clear
    · rw [if_neg hu, Prod.mk.injEq]
      constructor
      · rintro ⟨⟨rfl, rfl⟩, -⟩
        exact ⟨0, ⟨fun i hi => by omega, hu⟩, by omega, rfl, rfl⟩
      · rintro ⟨k, hw, hk, rfl, rfl⟩
        cases k with
        | zero => exact ⟨⟨rfl, rfl⟩, by omega⟩
        | succ k => exact absurd (hw.busy 0 (by omega)) hu

theorem wait_eq {safety n k : Nat} (hw : Waits cmos n k) (hk : k < safety) :
    waitWhileUpdating cmos safety n = (safety - k, n + k + 1) :=
  (wait_iff.mpr ⟨k, hw, hk, rfl, rfl⟩).1

theorem doublePass_waits {safety n : Nat} (h : doublePass cmos regs safety n ≠ .giveUp) :
    ∃ k l, Waits cmos n k ∧ Waits cmos (secondWait regs n k) l ∧ k + l < safety := by
  unfold doublePass at h
  generalize hw : waitWhileUpdating cmos safety n = w at h
  obtain ⟨safety₁, n₁⟩ := w
  dsimp only at h
  by_cases h1 : safety₁ = 0
  · exact absurd (if_pos h1) h
  rw [if_neg h1] at h
  obtain ⟨k, hk, hlt, rfl, rfl⟩ := wait_iff.mp ⟨hw, by omega⟩
  generalize hw' : waitWhileUpdating cmos (safety - k) (n + k + 1 + regs.length + 1) = w' at h
  obtain ⟨safety₂, n₂⟩ := w'
  dsimp only at h
  by_cases h2 : safety₂ = 0
  · exact absurd (if_pos h2) h
  obtain ⟨l, hl, hlt', rfl, rfl⟩ := wait_iff.mp ⟨hw', by omega⟩
  exact ⟨k, l, hk, hl, by omega⟩

theorem doublePass_eq {safety n k l : Nat} (hk : Waits cmos n k)
    (hl : Waits cmos (secondWait regs n k) l) (h : k + l < safety) :
    doublePass cmos regs safety n =
      if readRegs cmos (n + k + 1) regs ≠ readRegs cmos (secondWait regs n k + l + 1) regs then
        .again (safety - (k + l)) (nextRound regs n k l)
      else .agree (readRegs cmos (secondWait regs n k + l + 1) regs)
        (cmos (n + k + 1 + regs.length) 0x0B) := by
  have hleft : safety - k - l = safety - (k + l) := by omega
  unfold doublePass
  rw [wait_eq hk (by omega)]
  dsimp only
  rw [if_neg (by omega), show n + k + 1 + regs.length + 1 = secondWait regs n k from rfl,
    wait_eq hl (by omega)]
  dsimp only
  rw [if_neg (by omega), hleft]
  refine if_congr (and_iff_left (by omega)) rfl rfl

theorem doublePass_again_iff {safety n safety' n' : Nat} :
    doublePass cmos regs safety n = .again safety' n' ↔
      ∃ k l, Disagrees cmos regs n k l ∧ k + l < safety ∧ safety' = safety - (k + l) ∧
        n' = nextRound regs n k l := by
  constructor
  · intro h
    have hgo : doublePass cmos regs safety n ≠ .giveUp := by rw [h]; simp
    obtain ⟨k, l, hk, hl, hlt⟩ := doublePass_waits hgo
    rw [doublePass_eq hk hl hlt] at h
    split at h
    · rename_i hne
      injection h with hs hn
      exact ⟨k, l, ⟨hk, hl, hne⟩, hlt, hs.symm, hn.symm⟩
    · cases h
  · rintro ⟨k, l, hd, hlt, rfl, rfl⟩
    rw [doublePass_eq hd.first hd.second hlt, if_pos hd.differ]

theorem doublePass_agree {safety n : Nat} {values : List UInt8} {statusB : UInt8}
    (h : doublePass cmos regs safety n = .agree values statusB) :
    ∃ k l, Waits cmos n k ∧ Waits cmos (secondWait regs n k) l ∧
      readRegs cmos (n + k + 1) regs = values ∧
      readRegs cmos (secondWait regs n k + l + 1) regs = values ∧
      statusB = cmos (n + k + 1 + regs.length) 0x0B := by
  have hgo : doublePass cmos regs safety n ≠ .giveUp := by rw [h]; simp
  obtain ⟨k, l, hk, hl, hlt⟩ := doublePass_waits hgo
  rw [doublePass_eq hk hl hlt] at h
  split at h
  · cases h
  · rename_i heq
    injection h with hv hb
    exact ⟨k, l, hk, hl, (not_not.mp heq).trans hv, hv, hb.symm⟩

/-! ## Round after round -/

/-- Another round follows, and how it begins. -/
def Goes (cmos : Cmos) (regs : List UInt8) (st : Nat × Nat) : Prop :=
  ∃ safety n, doublePass cmos regs st.1 st.2 = .again safety n

def next (cmos : Cmos) (regs : List UInt8) (st : Nat × Nat) : Nat × Nat :=
  match doublePass cmos regs st.1 st.2 with
  | .again safety n => (safety, n)
  | _ => st

theorem doubleRead_isSome : ∀ {fuel : Nat} {st : Nat × Nat},
    (doubleRead cmos regs (fuel + 1) st.1 st.2).isSome ↔
      Walk.Returns (next cmos regs) (Goes cmos regs) (fun _ => False) fuel st := by
  intro fuel
  induction fuel with
  | zero =>
    intro st
    unfold doubleRead Walk.Returns Goes
    cases doublePass cmos regs st.1 st.2 <;> simp [doubleRead]
  | succ fuel ih =>
    intro st
    rw [doubleRead, Walk.Returns]
    cases h : doublePass cmos regs st.1 st.2 with
    | giveUp => simp [Goes, h]
    | agree values statusB => simp [Goes, h]
    | again safety n =>
      have hnext : next cmos regs st = (safety, n) := by
        unfold next
        rw [h]
      have hgoes : Goes cmos regs st := ⟨safety, n, h⟩
      rw [hnext, ← ih]
      simp [hgoes]

theorem iterate_next {start first second : Nat → Nat} (h0 : start 0 = 0)
    (hround : ∀ i, Disagrees cmos regs (start i) (first i) (second i) ∧
      start (i + 1) = nextRound regs (start i) (first i) (second i))
    (hsum : ∀ i, ∑ j ∈ Finset.range i, (first j + second j) < safetyLimit) (i : Nat) :
    (next cmos regs)^[i] (safetyLimit, 0) =
        (safetyLimit - ∑ j ∈ Finset.range i, (first j + second j), start i) ∧
      Goes cmos regs ((next cmos regs)^[i] (safetyLimit, 0)) := by
  have hgoes : ∀ i, doublePass cmos regs
      (safetyLimit - ∑ j ∈ Finset.range i, (first j + second j)) (start i) =
      .again (safetyLimit - ∑ j ∈ Finset.range (i + 1), (first j + second j)) (start (i + 1)) := by
    intro i
    have hlt := hsum (i + 1)
    rw [Finset.sum_range_succ] at hlt ⊢
    exact doublePass_again_iff.mpr
      ⟨first i, second i, (hround i).1, by omega, by omega, (hround i).2⟩
  have hstate : (next cmos regs)^[i] (safetyLimit, 0) =
      (safetyLimit - ∑ j ∈ Finset.range i, (first j + second j), start i) := by
    induction i with
    | zero => simp [h0]
    | succ i ih =>
      rw [Function.iterate_succ_apply', ih, next, hgoes]
  refine ⟨hstate, ?_⟩
  rw [hstate]
  exact ⟨_, _, hgoes i⟩

/-- Rounds that always go on are an endless run. -/
theorem endless_of_goes (h : ∀ i, Goes cmos regs ((next cmos regs)^[i] (safetyLimit, 0))) :
    Endless cmos regs := by
  have hround : ∀ i, ∃ k l, Disagrees cmos regs ((next cmos regs)^[i] (safetyLimit, 0)).2 k l ∧
      k + l < ((next cmos regs)^[i] (safetyLimit, 0)).1 ∧
      (next cmos regs)^[i + 1] (safetyLimit, 0) =
        (((next cmos regs)^[i] (safetyLimit, 0)).1 - (k + l),
          nextRound regs ((next cmos regs)^[i] (safetyLimit, 0)).2 k l) := by
    intro i
    obtain ⟨safety, n, hpass⟩ := h i
    obtain ⟨k, l, hd, hlt, rfl, rfl⟩ := doublePass_again_iff.mp hpass
    refine ⟨k, l, hd, hlt, ?_⟩
    rw [Function.iterate_succ_apply', next, hpass]
  choose first second hd hlt hnext using hround
  have hleft : ∀ i, ((next cmos regs)^[i] (safetyLimit, 0)).1 +
      ∑ j ∈ Finset.range i, (first j + second j) = safetyLimit := by
    intro i
    induction i with
    | zero => rfl
    | succ i ih =>
      have hi := hlt i
      rw [hnext, Finset.sum_range_succ]
      dsimp only
      omega
  refine ⟨fun i => ((next cmos regs)^[i] (safetyLimit, 0)).2, first, second, rfl, fun i => ⟨hd i, ?_⟩,
    fun i => ?_⟩
  · show ((next cmos regs)^[i + 1] (safetyLimit, 0)).2 = _
    rw [hnext]
  · have := hleft i
    have := hlt i
    omega

theorem stops_iff : Walk.Stops (next cmos regs) (Goes cmos regs) (fun _ => False) (safetyLimit, 0) ↔
    ¬ Endless cmos regs := by
  constructor
  · rintro ⟨k, hk | hk⟩ ⟨start, first, second, h0, hround, hsum⟩
    · exact hk (iterate_next h0 hround hsum k).2
    · exact hk
  · intro h
    by_contra hno
    refine h (endless_of_goes fun i => ?_)
    by_contra hi
    exact hno ⟨i, .inl hi⟩

theorem doubleRead_ends_iff :
    (∃ fuel₀, ∀ fuel, fuel₀ ≤ fuel → (doubleRead cmos regs fuel safetyLimit 0).isSome) ↔
      ¬ Endless cmos regs := by
  rw [← stops_iff]
  constructor
  · rintro ⟨fuel, h⟩
    exact Walk.stops_of_returns (doubleRead_isSome.mp (h (fuel + 1) (by omega)))
  · rintro ⟨k, hk⟩
    refine ⟨k + 2, fun fuel hfuel => ?_⟩
    obtain ⟨fuel, rfl⟩ : ∃ f, fuel = f + 1 := ⟨fuel - 1, by omega⟩
    exact doubleRead_isSome.mpr (Walk.returns_of_stops hk (by omega))

theorem doubleRead_agrees {values : List UInt8} {statusB : UInt8} : ∀ {fuel safety n : Nat},
    doubleRead cmos regs fuel safety n = some (some (values, statusB)) →
    ∃ n k l, Waits cmos n k ∧ Waits cmos (secondWait regs n k) l ∧
      readRegs cmos (n + k + 1) regs = values ∧
      readRegs cmos (secondWait regs n k + l + 1) regs = values ∧
      statusB = cmos (n + k + 1 + regs.length) 0x0B := by
  intro fuel
  induction fuel with
  | zero => exact fun h => nomatch h
  | succ fuel ih =>
    intro safety n h
    rw [doubleRead] at h
    cases hp : doublePass cmos regs safety n with
    | giveUp => simp [hp] at h
    | again safety' n' =>
      rw [hp] at h
      exact ih h
    | agree values' statusB' =>
      simp only [hp, Option.some.injEq, Prod.mk.injEq] at h
      obtain ⟨rfl, rfl⟩ := h
      exact ⟨n, doublePass_agree hp⟩

end Loop

/-! ## The two functions -/

section Read

variable {α : Type} {regs : List UInt8} {decode : List UInt8 → UInt8 → Option α} {cmos : Cmos}

theorem rtcRead_isSome (decode : List UInt8 → UInt8 → Option α) (fuel : Nat) (out : α) :
    (rtcRead regs decode cmos fuel (some out)).isSome ↔
      (doubleRead cmos regs fuel safetyLimit 0).isSome := by
  unfold rtcRead
  rcases doubleRead cmos regs fuel safetyLimit 0 with _ | _ | ⟨values, statusB⟩
  · simp
  · simp
  · cases h : decode values statusB <;> simp [h]

theorem rtcRead_fields {fuel : Nat} {out : α} {out' : Option α}
    (h : rtcRead regs decode cmos fuel (some out) = some (true, out')) :
    ∃ fields n m, out' = some fields ∧ FromTwoReads cmos regs decode fields n m := by
  unfold rtcRead at h
  rcases hr : doubleRead cmos regs fuel safetyLimit 0 with _ | _ | ⟨values, statusB⟩
  · simp [hr] at h
  · simp [hr] at h
  rw [hr] at h
  dsimp only at h
  cases hd : decode values statusB with
  | none => simp [hd] at h
  | some fields =>
    simp only [hd, Option.some.injEq, Prod.mk.injEq, true_and] at h
    obtain ⟨n, k, l, hk, hl, hv, hv', rfl⟩ := doubleRead_agrees hr
    refine ⟨fields, n + k, secondWait regs n k + l, h.symm, hk.clear, ?_, fun i hi hlt => ?_,
      hl.clear, hv.trans hv'.symm, ?_⟩
    · show n + k + 1 + regs.length + 1 ≤ n + k + 1 + regs.length + 1 + l
      omega
    · obtain ⟨j, rfl⟩ := Nat.exists_eq_add_of_le hi
      exact hl.busy j (by simp only [secondWait] at hlt; omega)
    · rw [hv]
      exact hd

theorem sound_iff (out : α) :
    Sound cmos regs decode (fun fuel => rtcRead regs decode cmos fuel (some out)) ↔
      ¬ Endless cmos regs := by
  rw [← doubleRead_ends_iff]
  simp only [← rtcRead_isSome decode _ out]
  exact ⟨fun h => h.ends, fun h => ⟨h, fun _ _ => rtcRead_fields⟩⟩

end Read

/-- The functions come back, with the fields of two equal reads, unless the reads never agree and the
clock is found updating too seldom to give up. -/
theorem rtcRead_iff (cmos : Cmos) (time : RtcTime) (date : RtcDate) :
    (Sound cmos timeRegs decodeTime (fun fuel => rtcReadTime cmos fuel (some time)) ↔
        ¬ Endless cmos timeRegs) ∧
      (Sound cmos dateRegs decodeDate (fun fuel => rtcReadDate cmos fuel (some date)) ↔
        ¬ Endless cmos dateRegs) :=
  ⟨sound_iff time, sound_iff date⟩

/-- A clock that is never updating, and whose seconds are 10 and 11 in turn. -/
def flickering : Cmos := fun n reg =>
  if reg = 0x00 then (if n % 9 < 5 then 0x10 else 0x11) else if reg = 0x0B then 0x02 else 0

theorem flickering_endless : Endless flickering timeRegs := by
  have hclear : ∀ n, Waits flickering n 0 := fun n =>
    ⟨fun i hi => by omega, by simp [isUpdating, flickering]⟩
  refine ⟨fun i => 9 * i, fun _ => 0, fun _ => 0, rfl, fun i => ⟨⟨hclear _, hclear _, ?_⟩, ?_⟩,
    fun i => by simp [safetyLimit]⟩
  · have h1 : (9 * i + 0 + 1) % 9 < 5 := by omega
    have h2 : ¬ (secondWait timeRegs (9 * i) 0 + 0 + 1) % 9 < 5 := by
      show ¬ (9 * i + 0 + 1 + 3 + 1 + 0 + 1) % 9 < 5
      omega
    intro heq
    injection heq with hhead
    simp only [flickering, if_pos h1, if_neg h2] at hhead
    exact absurd hhead (by decide)
  · show 9 * (i + 1) = 9 * i + 0 + 1 + 3 + 1 + 0 + 1 + 3
    omega

theorem flickering_not_sound : ¬ ∀ (cmos : Cmos) (time : RtcTime) (date : RtcDate),
    Sound cmos timeRegs decodeTime (fun fuel => rtcReadTime cmos fuel (some time)) ∧
      Sound cmos dateRegs decodeDate (fun fuel => rtcReadDate cmos fuel (some date)) := by
  intro h
  exact (sound_iff (⟨0, 0, 0⟩ : RtcTime)).mp (h flickering ⟨0, 0, 0⟩ ⟨2000, 1, 1⟩).1 flickering_endless

end Rtc
end MiniDos
