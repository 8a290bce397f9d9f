import MiniDos.Shell.Numbers

/-!
# MiniDos.Shell.Clock

The arguments of the commands `time` and `date`: the parsers of `shell_builtin_clock.inc`, and the
texts that they are to take.
-/

namespace MiniDos
namespace Args

open Fat16 Fields

structure RtcTime where
  hours : UInt8
  minutes : UInt8
  seconds : UInt8
  deriving DecidableEq

structure RtcDate where
  year : UInt16
  month : UInt8
  day : UInt8
  deriving DecidableEq

def chColon : Byte := 0x3A

def decimalValue (c : Byte) : Nat := c.toNat - 0x30

/-! ## The time -/

/-- `values`, as far as they are read, `current_value` and `digits`. -/
structure TimeState where
  values : List Nat
  current : Nat
  digits : Nat

/-- The loop of `shell_builtin_parse_time_arg`; `none`: it returned. -/
def timeLoop : TimeState → CStr → Option TimeState
  | st, [] => some st
  | st, c :: s =>
    if isDecimal c then
      let st := { st with current := st.current * 10 + decimalValue c, digits := st.digits + 1 }
      if 2 < st.digits then none else timeLoop st s
    else if c = chColon then
      if st.digits = 0 ∨ 2 ≤ st.values.length then none
      else timeLoop ⟨st.values ++ [st.current], 0, 0⟩ s
    else if isBlank c then (if s.dropWhile isBlank ≠ [] then none else some st)
    else none

/-- What `shell_builtin_parse_time_arg` does behind the loop. -/
def timeResult (time : RtcTime) (st : TimeState) : Bool × RtcTime :=
  if st.digits = 0 then (false, time)
  else
    let values := st.values ++ [st.current]
    if values.length ≠ 2 ∧ values.length ≠ 3 then (false, time)
    else if 23 < values.getD 0 0 ∨ 59 < values.getD 1 0 then (false, time)
    else
      let time : RtcTime :=
        { hours := UInt8.ofNat (values.getD 0 0)
          minutes := UInt8.ofNat (values.getD 1 0)
          seconds := UInt8.ofNat (if values.length = 3 then values.getD 2 0 else 0) }
      (decide (time.seconds ≤ 59), time)

/-- `shell_builtin_parse_time_arg`, with what it leaves in `*time`. -/
def parseTimeArg (args : CStr) (time : RtcTime) : Bool × RtcTime :=
  match timeLoop ⟨[], 0, 0⟩ (args.dropWhile isBlank) with
  | none => (false, time)
  | some st => timeResult time st

/-! ## The date -/

/-- `values`, `digit_counts` and `value_index`. -/
structure DateState where
  values : Nat → Nat
  digitCounts : Nat → Nat
  valueIndex : Nat

def isDateSep (c : Byte) : Bool := c == 0x2F || c == 0x2D

/-- A digit, entered into the arrays. -/
def DateState.addDigit (st : DateState) (c : Byte) : DateState :=
  { st with
      values := Function.update st.values st.valueIndex
        (st.values st.valueIndex * 10 + decimalValue c)
      digitCounts := Function.update st.digitCounts st.valueIndex
        (st.digitCounts st.valueIndex + 1) }

/-- The loop of `shell_builtin_parse_date_arg`; `none`: it returned. -/
def dateLoop : DateState → CStr → Option DateState
  | st, [] => some st
  | st, c :: s =>
    if isDecimal c then
      if 2 < st.valueIndex then none
      else
        let st := st.addDigit c
        if st.valueIndex < 2 ∧ 2 < st.digitCounts st.valueIndex then none
        else if st.valueIndex = 2 ∧ 4 < st.digitCounts st.valueIndex then none
        else dateLoop st s
    else if isDateSep c then
      if st.digitCounts st.valueIndex = 0 ∨ 2 ≤ st.valueIndex then none
      else dateLoop { st with valueIndex := st.valueIndex + 1 } s
    else if isBlank c then (if s.dropWhile isBlank ≠ [] then none else some st)
    else none

/-- The year that `digits` digits of value `value` are for. -/
def yearOf (value digits : Nat) : Option UInt16 :=
  if digits = 2 then some (UInt16.ofNat (if 80 ≤ value then 1900 + value else 2000 + value))
  else if digits = 4 then some (UInt16.ofNat value)
  else none

/-- What `shell_builtin_parse_date_arg` does behind the loop. -/
def dateResult (st : DateState) : Option RtcDate :=
  if st.valueIndex ≠ 2 ∨ st.digitCounts 2 = 0 then none
  else
    match yearOf (st.values 2) (st.digitCounts 2) with
    | none => none
    | some year =>
      if year < 1980 ∨ 2099 < year then none
      else if st.values 1 < 1 ∨ 12 < st.values 1 then none
      else if st.values 0 < 1 ∨ 31 < st.values 0 then none
      else
        some { year := year
               month := UInt8.ofNat (st.values 1)
               day := UInt8.ofNat (st.values 0) }

/-- `shell_builtin_parse_date_arg`; `none`: it returned 0, with `*date` as it was. -/
def parseDateArg (args : CStr) : Option RtcDate :=
  (dateLoop ⟨fun _ => 0, fun _ => 0, 0⟩ (args.dropWhile isBlank)).bind dateResult

/-! ## The texts -/

/-- One or two digits that denote `n`. -/
def TwoDigits (f : CStr) (n : Nat) : Prop :=
  (∀ c ∈ f, isDecimal c = true) ∧ (f.length = 1 ∨ f.length = 2) ∧ n = number 10 decimalValue f

/-- `H:M` or `H:M:S`, in range. -/
inductive TimeText : CStr → RtcTime → Prop
  | short {h m : CStr} {time : RtcTime} (hh : TwoDigits h time.hours.toNat)
      (hm : TwoDigits m time.minutes.toNat) (hs : time.seconds = 0) (h23 : time.hours ≤ 23)
      (m59 : time.minutes ≤ 59) : TimeText (h ++ chColon :: m) time
  | long {h m s : CStr} {time : RtcTime} (hh : TwoDigits h time.hours.toNat)
      (hm : TwoDigits m time.minutes.toNat) (hs : TwoDigits s time.seconds.toNat)
      (h23 : time.hours ≤ 23) (m59 : time.minutes ≤ 59) (s59 : time.seconds ≤ 59) :
      TimeText (h ++ chColon :: (m ++ chColon :: s)) time

def YearText (f : CStr) (year : Nat) : Prop :=
  (∀ c ∈ f, isDecimal c = true) ∧
    ((f.length = 2 ∧ 1980 ≤ year ∧ year ≤ 2079 ∧ year % 100 = number 10 decimalValue f) ∨
      (f.length = 4 ∧ year = number 10 decimalValue f))

/-- `D/M/Y`, in range, each `/` also `-`. -/
structure DateText (t : CStr) (date : RtcDate) : Prop where
  fields : ∃ d m y sep sep', t = d ++ sep :: (m ++ sep' :: y) ∧ isDateSep sep = true ∧
    isDateSep sep' = true ∧ TwoDigits d date.day.toNat ∧ TwoDigits m date.month.toNat ∧
    YearText y date.year.toNat
  day : 1 ≤ date.day ∧ date.day ≤ 31
  month : 1 ≤ date.month ∧ date.month ≤ 12
  year : 1980 ≤ date.year ∧ date.year ≤ 2099

/-! ## Characters and fields -/

theorem isBlank_cases {c : Byte} (h : isBlank c = true) : c = chSpace ∨ c = 0x09 := by
  simpa [isBlank] using h

theorem isBlank_decimal (c : Byte) (h : isBlank c = true) : isDecimal c = false := by
  rcases isBlank_cases h with rfl | rfl <;> rfl

def isColon (c : Byte) : Bool := c == chColon

theorem isBlank_colon (c : Byte) (h : isBlank c = true) : isColon c = false := by
  rcases isBlank_cases h with rfl | rfl <;> rfl

theorem isColon_decimal (c : Byte) (h : isColon c = true) : isDecimal c = false := by
  obtain rfl : c = chColon := by simpa [isColon] using h
  rfl

theorem isBlank_dateSep (c : Byte) (h : isBlank c = true) : isDateSep c = false := by
  rcases isBlank_cases h with rfl | rfl <;> rfl

theorem isDateSep_decimal (c : Byte) (h : isDateSep c = true) : isDecimal c = false := by
  have hc : c = 0x2F ∨ c = 0x2D := by simpa [isDateSep] using h
  rcases hc with rfl | rfl <;> rfl

theorem decimalValue_lt {c : Byte} (h : isDecimal c = true) : decimalValue c < 10 := by
  simp only [isDecimal, decide_eq_true_eq, UInt8.le_iff_toNat_le] at h
  have h9 : c.toNat ≤ 0x39 := h.2
  unfold decimalValue
  omega

def fieldValue (f : CStr) : Nat := number 10 decimalValue f

theorem fieldValue_lt {f : CStr} (h : ∀ c ∈ f, isDecimal c = true) {n : Nat} (hn : f.length ≤ n) :
    fieldValue f < 10 ^ n :=
  Nat.lt_of_lt_of_le (number_lt fun c hc => decimalValue_lt (h c hc))
    (Nat.pow_le_pow_right (by decide) hn)

theorem twoDigits_iff {f : CStr} {n : Nat} : TwoDigits f n ↔
    (∀ c ∈ f, isDecimal c = true) ∧ f ≠ [] ∧ f.length ≤ 2 ∧ n = fieldValue f := by
  rw [← List.length_pos_iff]
  unfold TwoDigits fieldValue
  constructor
  · rintro ⟨hd, hlen, hn⟩
    exact ⟨hd, by omega, by omega, hn⟩
  · rintro ⟨hd, hpos, hlen, hn⟩
    exact ⟨hd, by omega, hn⟩

/-! ## The time -/

/-- The state of the loop with the fields `done` and the characters `cur` read. -/
def timeState (done : List CStr) (cur : CStr) : TimeState :=
  ⟨done.map fieldValue, fieldValue cur, cur.length⟩

theorem timeLoop_cons (done : List CStr) (cur : CStr) (c : Byte) (s : CStr) :
    timeLoop (timeState done cur) (c :: s) =
      if isDecimal c then
        (if cur.length < 2 then timeLoop (timeState done (cur ++ [c])) s else none)
      else if isColon c then
        (if cur ≠ [] ∧ done.length + 1 < 3 then timeLoop (timeState (done ++ [cur]) []) s else none)
      else if isBlank c then
        (if s.dropWhile isBlank = [] then some (timeState done cur) else none)
      else none := by
  have hdigit : timeState done (cur ++ [c]) =
      ⟨done.map fieldValue, fieldValue cur * 10 + decimalValue c, cur.length + 1⟩ := by
    simp [timeState, fieldValue]
  have hsep : timeState (done ++ [cur]) [] = ⟨done.map fieldValue ++ [fieldValue cur], 0, 0⟩ := by
    simp [timeState, fieldValue]
  have hroom : (2 < cur.length + 1) ↔ ¬ cur.length < 2 := by omega
  have hmore : (cur.length = 0 ∨ 2 ≤ (done.map fieldValue).length) ↔
      ¬ (cur ≠ [] ∧ done.length + 1 < 3) := by
    rw [List.length_map, List.length_eq_zero_iff, not_and_or, not_not, Nat.not_lt]
    exact or_congr_right Nat.succ_le_succ_iff.symm
  rw [hdigit, hsep]
  simp only [timeLoop, timeState, hroom, hmore, ite_not, isColon, beq_iff_eq]

theorem timeLoop_eq (s : CStr) : ∀ done cur, timeLoop (timeState done cur) s =
    (readFields isDecimal isColon isBlank (fun _ => 2) 3 done cur s).map
      (fun r => timeState r.1 r.2) := by
  induction s with
  | nil =>
    intro done cur
    rfl
  | cons c s ih =>
    intro done cur
    rw [timeLoop_cons, readFields, ih, ih]
    simp only [apply_ite (Option.map _), Option.map_none, Option.map_some]

def TimeFields (fs : List CStr) (time : RtcTime) : Prop :=
  fieldValue (fs.getD 0 []) = time.hours.toNat ∧ fieldValue (fs.getD 1 []) = time.minutes.toNat ∧
    fieldValue (fs.getD 2 []) = time.seconds.toNat ∧ (fs.length = 2 ∨ fs.length = 3) ∧
    time.hours ≤ 23 ∧ time.minutes ≤ 59 ∧ time.seconds ≤ 59

theorem getD_map_fieldValue (fs : List CStr) (i : Nat) :
    (fs.map fieldValue).getD i 0 = fieldValue (fs.getD i []) := by
  simp only [List.getD_eq_getElem?_getD, List.getElem?_map]
  cases fs[i]? <;> rfl

theorem getD_of_mem {fs : List CStr} {P : CStr → Prop} (h : ∀ f ∈ fs, P f) (h0 : P [])
    (i : Nat) : P (fs.getD i []) := by
  rw [List.getD_eq_getElem?_getD]
  cases hi : fs[i]? with
  | none => exact h0
  | some f => exact h f (List.mem_of_getElem? hi)

/-- The tests behind the loop are those of the fields. -/
theorem timeResult_eq {time v : RtcTime} {ds : List CStr} {d : CStr}
    (hfs : d ≠ [] → ∀ f ∈ ds ++ [d], fieldValue f < 100) :
    timeResult time (timeState ds d) = (true, v) ↔ d ≠ [] ∧ TimeFields (ds ++ [d]) v := by
  have hvalues : ds.map fieldValue ++ [fieldValue d] = (ds ++ [d]).map fieldValue := by simp
  simp only [timeResult, timeState, List.length_eq_zero_iff, hvalues, getD_map_fieldValue,
    List.length_map, TimeFields]
  generalize ds ++ [d] = fs at hfs
  by_cases hd : d = []
  · simp [hd]
  have hlt : ∀ i, fieldValue (fs.getD i []) < 256 := fun i =>
    Nat.lt_trans (getD_of_mem (hfs hd) (by decide) i) (by decide)
  by_cases hlen : fs.length = 2 ∨ fs.length = 3
  · have hc : (if fs.length = 3 then fieldValue (fs.getD 2 []) else 0) = fieldValue (fs.getD 2 []) := by
      split
      case isTrue => rfl
      case isFalse h3 => rw [List.getD_eq_getElem?_getD, List.getElem?_eq_none (by omega)]; rfl
    rw [if_neg hd, if_neg (by omega), hc]
    have hA := hlt 0
    have hB := hlt 1
    have hC := hlt 2
    generalize fieldValue (fs.getD 0 []) = a at hA ⊢
    generalize fieldValue (fs.getD 1 []) = b at hB ⊢
    generalize fieldValue (fs.getD 2 []) = c at hC ⊢
    simp only [UInt8.le_iff_toNat_le]
    constructor
    · intro h
      split at h
      case isTrue => cases h
      case isFalse hab =>
        obtain ⟨h59, rfl⟩ := Prod.mk.inj h
        simp only [decide_eq_true_eq, UInt8.toNat_ofNat_of_lt' hA, UInt8.toNat_ofNat_of_lt' hB,
          UInt8.toNat_ofNat_of_lt' hC] at h59 ⊢
        have hab' : a ≤ 23 ∧ b ≤ 59 := by omega
        exact ⟨hd, trivial, trivial, trivial, hlen, hab'.1, hab'.2, h59⟩
    · rintro ⟨_, rfl, rfl, rfl, _, h23, h59, hs⟩
      have hab : ¬ (23 < v.hours.toNat ∨ 59 < v.minutes.toNat) := by
        have h23' : v.hours.toNat ≤ 23 := h23
        have h59' : v.minutes.toNat ≤ 59 := h59
        omega
      rw [if_neg hab]
      simpa using hs
  · rw [if_neg hd, if_pos (by omega)]
    simp [hlen]

theorem timeText_iff {t : CStr} {time : RtcTime} : TimeText t time ↔
    ∃ fs, Split isDecimal isColon t fs ∧ Fit (fun _ => 2) 0 fs ∧ fs.length ≤ 3 ∧
      TimeFields fs time := by
  constructor
  · intro h
    cases h with
    | @short h m _ hh hm hs h23 m59 =>
      obtain ⟨hhd, hhne, hhlen, hhv⟩ := twoDigits_iff.mp hh
      obtain ⟨hmd, hmne, hmlen, hmv⟩ := twoDigits_iff.mp hm
      refine ⟨[h, m], .more hhd (by decide) (.last hmd), ⟨hhne, hhlen, hmne, hmlen, trivial⟩,
        by simp, hhv.symm, hmv.symm, by rw [hs]; rfl, .inl rfl, h23, m59, by rw [hs]; decide⟩
    | @long h m s _ hh hm hs h23 m59 s59 =>
      obtain ⟨hhd, hhne, hhlen, hhv⟩ := twoDigits_iff.mp hh
      obtain ⟨hmd, hmne, hmlen, hmv⟩ := twoDigits_iff.mp hm
      obtain ⟨hsd, hsne, hslen, hsv⟩ := twoDigits_iff.mp hs
      exact ⟨[h, m, s], .more hhd (by decide) (.more hmd (by decide) (.last hsd)),
        ⟨hhne, hhlen, hmne, hmlen, hsne, hslen, trivial⟩, by simp, hhv.symm, hmv.symm, hsv.symm,
        .inr rfl, h23, m59, s59⟩
  · rintro ⟨fs, hsplit, hfit, _, hh, hm, hs, hlen, h23, m59, s59⟩
    match fs, hlen with
    | [h, m], _ =>
      obtain ⟨c, u, rfl, hc, hhd, hsplit⟩ := split_cons_cons.mp hsplit
      obtain ⟨rfl, hmd⟩ := split_one.mp hsplit
      obtain rfl : c = chColon := by simpa [isColon] using hc
      exact .short (twoDigits_iff.mpr ⟨hhd, hfit.1, hfit.2.1, hh.symm⟩)
        (twoDigits_iff.mpr ⟨hmd, hfit.2.2.1, hfit.2.2.2.1, hm.symm⟩)
        (UInt8.toNat_inj.mp hs.symm) h23 m59
    | [h, m, s], _ =>
      obtain ⟨c, u, rfl, hc, hhd, hsplit⟩ := split_cons_cons.mp hsplit
      obtain ⟨c', u', rfl, hc', hmd, hsplit⟩ := split_cons_cons.mp hsplit
      obtain ⟨rfl, hsd⟩ := split_one.mp hsplit
      obtain rfl : c = chColon := by simpa [isColon] using hc
      obtain rfl : c' = chColon := by simpa [isColon] using hc'
      exact .long (twoDigits_iff.mpr ⟨hhd, hfit.1, hfit.2.1, hh.symm⟩)
        (twoDigits_iff.mpr ⟨hmd, hfit.2.2.1, hfit.2.2.2.1, hm.symm⟩)
        (twoDigits_iff.mpr ⟨hsd, hfit.2.2.2.2.1, hfit.2.2.2.2.2.1, hs.symm⟩) h23 m59 s59

theorem TimeText.head {t : CStr} {time : RtcTime} (h : TimeText t time) :
    ∃ c u, t = c :: u ∧ isBlank c = false := by
  obtain ⟨fs, hsplit, hfit, _, _, _, _, hlen, _⟩ := timeText_iff.mp h
  match fs, hlen with
  | f :: fs, _ =>
    obtain ⟨c, u, rfl, hc⟩ := hsplit.head hfit.1
    refine ⟨c, u, rfl, Bool.eq_false_iff.mpr fun hb => ?_⟩
    rw [isBlank_decimal c hb] at hc
    cases hc

theorem timeFields_iff {s : CStr} {fs : List CStr} :
    (∃ ds d, readFields isDecimal isColon isBlank (fun _ => 2) 3 [] [] s = some (ds, d) ∧ d ≠ [] ∧
      ds ++ [d] = fs) ↔
    ∃ t pad, s = t ++ pad ∧ Split isDecimal isColon t fs ∧ (∀ c ∈ pad, isBlank c = true) ∧
      Fit (fun _ => 2) 0 fs ∧ fs.length ≤ 3 :=
  readFields_iff isBlank_decimal isBlank_colon isColon_decimal (by decide)

theorem parseTimeArg_fields (args : CStr) (time v : RtcTime) : parseTimeArg args time = (true, v) ↔
    ∃ ds d, readFields isDecimal isColon isBlank (fun _ => 2) 3 [] [] (args.dropWhile isBlank) =
      some (ds, d) ∧ d ≠ [] ∧ TimeFields (ds ++ [d]) v := by
  have hloop := timeLoop_eq (args.dropWhile isBlank) [] []
  have hstart : timeState [] [] = ⟨[], 0, 0⟩ := rfl
  rw [hstart] at hloop
  rw [parseTimeArg, hloop]
  cases hread : readFields isDecimal isColon isBlank (fun _ => 2) 3 [] []
      (args.dropWhile isBlank) with
  | none => simp
  | some r =>
    obtain ⟨ds, d⟩ := r
    have hfs : d ≠ [] → ∀ f ∈ ds ++ [d], fieldValue f < 100 := by
      intro hd f hf
      obtain ⟨t, pad, _, hsplit, _, hfit, _⟩ := timeFields_iff.mp ⟨ds, d, hread, hd, rfl⟩
      exact fieldValue_lt (hsplit.digits f hf) (hfit.length_le (fun _ => Nat.le_refl 2) f hf)
    simp only [Option.map_some, timeResult_eq hfs, Option.some.injEq, Prod.mk.injEq]
    constructor
    · exact fun h => ⟨ds, d, ⟨rfl, rfl⟩, h⟩
    · rintro ⟨_, _, ⟨rfl, rfl⟩, h⟩
      exact h

theorem parseTimeArg_iff (args : CStr) (time v : RtcTime) :
    parseTimeArg args time = (true, v) ↔ Padded isBlank (TimeText · v) args := by
  rw [parseTimeArg_fields, padded_iff fun t => TimeText.head]
  constructor
  · rintro ⟨ds, d, hread, hd, hv⟩
    obtain ⟨t, pad, hs, hsplit, hpad, hfit, hlen⟩ := timeFields_iff.mp ⟨ds, d, hread, hd, rfl⟩
    exact ⟨t, pad, hs, timeText_iff.mpr ⟨_, hsplit, hfit, hlen, hv⟩, hpad⟩
  · rintro ⟨t, pad, hs, ht, hpad⟩
    obtain ⟨fs, hsplit, hfit, hlen, hv⟩ := timeText_iff.mp ht
    obtain ⟨ds, d, hread, hd, rfl⟩ := timeFields_iff.mpr ⟨t, pad, hs, hsplit, hpad, hfit, hlen⟩
    exact ⟨ds, d, hread, hd, hv⟩

/-! ## The date -/

def dateRoom (i : Nat) : Nat := if i < 2 then 2 else 4

/-- The state of the loop with the fields `done` and the characters `cur` read. -/
def dateState (done : List CStr) (cur : CStr) : DateState where
  values i := fieldValue ((done ++ [cur]).getD i [])
  digitCounts i := ((done ++ [cur]).getD i []).length
  valueIndex := done.length

@[simp] theorem getD_concat_self (done : List CStr) (cur : CStr) :
    (done ++ [cur]).getD done.length [] = cur := by
  simp

theorem getD_concat_of_ne (done : List CStr) (cur cur' : CStr) {i : Nat} (h : i ≠ done.length) :
    (done ++ [cur]).getD i [] = (done ++ [cur']).getD i [] := by
  simp only [List.getD_eq_getElem?_getD, List.getElem?_append]
  split
  case isTrue => rfl
  case isFalse =>
    rw [List.getElem?_eq_none (by simp; omega), List.getElem?_eq_none (by simp; omega)]

theorem getD_concat_nil (fs : List CStr) (i : Nat) : (fs ++ [[]]).getD i [] = fs.getD i [] := by
  simp only [List.getD_eq_getElem?_getD, List.getElem?_append]
  split
  case isTrue => rfl
  case isFalse h =>
    rw [List.getElem?_eq_none (by omega : fs.length ≤ i)]
    cases hi : ([[]] : List CStr)[i - fs.length]? with
    | none => rfl
    | some f =>
      obtain rfl : f = [] := by simpa using List.mem_of_getElem? hi
      rfl

theorem update_concat (measure : CStr → Nat) (done : List CStr) (cur cur' : CStr) :
    Function.update (fun i => measure ((done ++ [cur]).getD i [])) done.length (measure cur') =
      fun i => measure ((done ++ [cur']).getD i []) := by
  funext i
  by_cases hi : i = done.length
  · subst hi
    simp
  · rw [Function.update_of_ne hi, getD_concat_of_ne done cur cur' hi]

theorem addDigit_dateState (done : List CStr) (cur : CStr) (c : Byte) :
    (dateState done cur).addDigit c = dateState done (cur ++ [c]) := by
  have hvalue : fieldValue cur * 10 + decimalValue c = fieldValue (cur ++ [c]) := by
    simp [fieldValue]
  have hcount : cur.length + 1 = (cur ++ [c]).length := by simp
  simp only [DateState.addDigit, dateState, getD_concat_self, hvalue, hcount]
  rw [update_concat fieldValue, update_concat List.length]

theorem nextField_dateState (done : List CStr) (cur : CStr) :
    { dateState done cur with valueIndex := (dateState done cur).valueIndex + 1 } =
      dateState (done ++ [cur]) [] := by
  simp only [dateState, getD_concat_nil, List.length_append, List.length_singleton]

theorem dateLoop_cons {done : List CStr} (hdone : done.length ≤ 2) (cur : CStr) (c : Byte)
    (s : CStr) : dateLoop (dateState done cur) (c :: s) =
      if isDecimal c then
        (if cur.length < dateRoom done.length then dateLoop (dateState done (cur ++ [c])) s
          else none)
      else if isDateSep c then
        (if cur ≠ [] ∧ done.length + 1 < 3 then dateLoop (dateState (done ++ [cur]) []) s else none)
      else if isBlank c then
        (if s.dropWhile isBlank = [] then some (dateState done cur) else none)
      else none := by
  have hindex : (dateState done cur).valueIndex = done.length := rfl
  have hcount : (dateState done cur).digitCounts done.length = cur.length := by simp [dateState]
  have hcount' : (dateState done (cur ++ [c])).digitCounts done.length = cur.length + 1 := by
    simp [dateState]
  have hmore : (cur.length = 0 ∨ 2 ≤ done.length) ↔ ¬ (cur ≠ [] ∧ done.length + 1 < 3) := by
    rw [List.length_eq_zero_iff, not_and_or, not_not, Nat.not_lt]
    exact or_congr_right Nat.succ_le_succ_iff.symm
  have hnext := nextField_dateState done cur
  rw [hindex] at hnext
  have hindex' : (dateState done (cur ++ [c])).valueIndex = done.length := rfl
  simp only [dateLoop, addDigit_dateState, hindex, hindex', hcount, hcount', hnext, hmore, ite_not]
  rw [if_neg (by omega : ¬ 2 < done.length)]
  have hroom : (done.length < 2 ∧ 2 < cur.length + 1 ∨ done.length = 2 ∧ 4 < cur.length + 1) ↔
      ¬ cur.length < dateRoom done.length := by
    unfold dateRoom
    split <;> omega
  simp only [← ite_or, hroom, ite_not]

theorem dateLoop_eq (s : CStr) : ∀ (done : List CStr) (cur : CStr), done.length ≤ 2 →
    dateLoop (dateState done cur) s =
      (readFields isDecimal isDateSep isBlank dateRoom 3 done cur s).map
        (fun r => dateState r.1 r.2) := by
  induction s with
  | nil =>
    intro done cur _
    rfl
  | cons c s ih =>
    intro done cur hdone
    have hsep : (if cur ≠ [] ∧ done.length + 1 < 3 then dateLoop (dateState (done ++ [cur]) []) s
        else none) = (if cur ≠ [] ∧ done.length + 1 < 3 then
          readFields isDecimal isDateSep isBlank dateRoom 3 (done ++ [cur]) [] s
          else none).map (fun r => dateState r.1 r.2) := by
      split
      case isTrue h => exact ih _ _ (by rw [List.length_append, List.length_singleton]; omega)
      case isFalse => rfl
    rw [dateLoop_cons hdone, readFields, ih _ _ hdone, hsep]
    simp only [apply_ite (Option.map _), Option.map_none, Option.map_some]

def DateFields (fs : List CStr) (date : RtcDate) : Prop :=
  fs.length = 3 ∧ fieldValue (fs.getD 0 []) = date.day.toNat ∧
    fieldValue (fs.getD 1 []) = date.month.toNat ∧
    yearOf (fieldValue (fs.getD 2 [])) (fs.getD 2 []).length = some date.year ∧
    (1 ≤ date.day ∧ date.day ≤ 31) ∧ (1 ≤ date.month ∧ date.month ≤ 12) ∧
    (1980 ≤ date.year ∧ date.year ≤ 2099)

/-- The tests behind the loop are those of the fields. -/
theorem dateResult_eq {v : RtcDate} {ds : List CStr} {d : CStr} :
    dateResult (dateState ds d) = some v ↔ d ≠ [] ∧ DateFields (ds ++ [d]) v := by
  match ds with
  | [f, g] =>
    simp only [dateResult, dateState, DateFields, List.cons_append, List.nil_append,
      List.getD_cons_zero, List.getD_cons_succ, List.length_cons, List.length_nil,
      List.length_eq_zero_iff, true_and]
    generalize fieldValue f = day
    generalize fieldValue g = month
    by_cases hd : d = []
    · simp [hd]
    rw [if_neg (by simp [hd])]
    cases hy : yearOf (fieldValue d) d.length with
    | none => simp
    | some year =>
      simp only [UInt8.le_iff_toNat_le]
      constructor
      · intro h
        split at h
        case isTrue => cases h
        case isFalse hyear =>
          split at h
          case isTrue => cases h
          case isFalse hmonth =>
            split at h
            case isTrue => cases h
            case isFalse hday =>
              obtain rfl := Option.some.inj h
              have hm : month < 256 := by omega
              have hd' : day < 256 := by omega
              simp only [UInt8.toNat_ofNat_of_lt' hm, UInt8.toNat_ofNat_of_lt' hd']
              have hm' : 1 ≤ month ∧ month ≤ 12 := by omega
              have hday' : 1 ≤ day ∧ day ≤ 31 := by omega
              have hyear' : 1980 ≤ year ∧ year ≤ 2099 := by simpa using hyear
              exact ⟨hd, trivial, trivial, trivial, hday', hm', hyear'⟩
      · rintro ⟨_, rfl, rfl, hyear, hday, hmonth, hrange⟩
        obtain rfl := Option.some.inj hyear
        have hday' : 1 ≤ v.day.toNat ∧ v.day.toNat ≤ 31 := hday
        have hmonth' : 1 ≤ v.month.toNat ∧ v.month.toNat ≤ 12 := hmonth
        have hrange' : ¬ (v.year < 1980 ∨ 2099 < v.year) := by simpa using hrange
        rw [if_neg hrange', if_neg (by omega), if_neg (by omega), UInt8.ofNat_toNat,
          UInt8.ofNat_toNat]
  | [] => simp [dateResult, dateState, DateFields]
  | [f] => simp [dateResult, dateState, DateFields]
  | f :: g :: h :: ds => simp [dateResult, dateState, DateFields]

theorem yearOf_iff {f : CStr} {year : UInt16} (hf : ∀ c ∈ f, isDecimal c = true) :
    yearOf (fieldValue f) f.length = some year ↔ YearText f year.toNat := by
  have hof : ∀ {n : Nat}, n < 65536 → (UInt16.ofNat n = year ↔ n = year.toNat) := fun hn => by
    rw [← UInt16.toNat_inj, UInt16.toNat_ofNat_of_lt' hn]
  simp only [yearOf, YearText, iff_true_intro hf, true_and]
  by_cases h2 : f.length = 2
  · have hlt : fieldValue f < 10 ^ 2 := fieldValue_lt hf (by omega)
    have hsize : (if 80 ≤ fieldValue f then 1900 + fieldValue f else 2000 + fieldValue f) < 65536 := by
      split <;> omega
    rw [if_pos h2, Option.some.injEq, hof hsize]
    simp only [h2, true_and]
    have hvalue : number 10 decimalValue f = fieldValue f := rfl
    rw [hvalue]
    constructor
    · intro h
      split at h <;> omega
    · intro h
      split <;> omega
  · rw [if_neg h2]
    by_cases h4 : f.length = 4
    · have hlt : fieldValue f < 10 ^ 4 := fieldValue_lt hf (by omega)
      have hvalue : number 10 decimalValue f = fieldValue f := rfl
      rw [if_pos h4, Option.some.injEq, hof (by omega), hvalue]
      simp [h4, eq_comm]
    · simp [h2, h4]

theorem dateText_iff {t : CStr} {date : RtcDate} : DateText t date ↔
    ∃ fs, Split isDecimal isDateSep t fs ∧ Fit dateRoom 0 fs ∧ fs.length ≤ 3 ∧
      DateFields fs date := by
  constructor
  · rintro ⟨⟨d, m, y, sep, sep', rfl, hsep, hsep', hd, hm, hy⟩, hday, hmonth, hyear⟩
    obtain ⟨hdd, hdne, hdlen, hdv⟩ := twoDigits_iff.mp hd
    obtain ⟨hmd, hmne, hmlen, hmv⟩ := twoDigits_iff.mp hm
    have hylen : y ≠ [] ∧ y.length ≤ 4 := by
      rw [← List.length_pos_iff]
      have hlen : y.length = 2 ∨ y.length = 4 := hy.2.imp And.left And.left
      omega
    exact ⟨[d, m, y], .more hdd hsep (.more hmd hsep' (.last hy.1)),
      ⟨hdne, hdlen, hmne, hmlen, hylen.1, hylen.2, trivial⟩, by simp, rfl, hdv.symm, hmv.symm,
      (yearOf_iff hy.1).mpr hy, hday, hmonth, hyear⟩
  · rintro ⟨fs, hsplit, hfit, _, hlen, hd, hm, hy, hday, hmonth, hyear⟩
    match fs, hlen with
    | [d, m, y], _ =>
      obtain ⟨sep, u, rfl, hsep, hdd, hsplit⟩ := split_cons_cons.mp hsplit
      obtain ⟨sep', u', rfl, hsep', hmd, hsplit⟩ := split_cons_cons.mp hsplit
      obtain ⟨rfl, hyd⟩ := split_one.mp hsplit
      exact ⟨⟨d, m, _, sep, sep', rfl, hsep, hsep',
        twoDigits_iff.mpr ⟨hdd, hfit.1, hfit.2.1, hd.symm⟩,
        twoDigits_iff.mpr ⟨hmd, hfit.2.2.1, hfit.2.2.2.1, hm.symm⟩, (yearOf_iff hyd).mp hy⟩,
        hday, hmonth, hyear⟩

theorem DateText.head {t : CStr} {date : RtcDate} (h : DateText t date) :
    ∃ c u, t = c :: u ∧ isBlank c = false := by
  obtain ⟨fs, hsplit, hfit, _, hlen, _⟩ := dateText_iff.mp h
  match fs, hlen with
  | f :: fs, _ =>
    obtain ⟨c, u, rfl, hc⟩ := hsplit.head hfit.1
    refine ⟨c, u, rfl, Bool.eq_false_iff.mpr fun hb => ?_⟩
    rw [isBlank_decimal c hb] at hc
    cases hc

theorem parseDateArg_fields (args : CStr) (v : RtcDate) : parseDateArg args = some v ↔
    ∃ ds d, readFields isDecimal isDateSep isBlank dateRoom 3 [] [] (args.dropWhile isBlank) =
      some (ds, d) ∧ d ≠ [] ∧ DateFields (ds ++ [d]) v := by
  have hloop := dateLoop_eq (args.dropWhile isBlank) [] [] (Nat.zero_le 2)
  have hstart : dateState [] [] = ⟨fun _ => 0, fun _ => 0, 0⟩ := by
    have hnil : ∀ i, ([[]] : List CStr).getD i [] = [] := getD_concat_nil []
    simp only [dateState, List.nil_append, hnil]
    rfl
  rw [hstart] at hloop
  rw [parseDateArg, hloop]
  cases readFields isDecimal isDateSep isBlank dateRoom 3 [] [] (args.dropWhile isBlank) with
  | none => simp
  | some r =>
    obtain ⟨ds, d⟩ := r
    simp [dateResult_eq]

theorem dateFields_iff {s : CStr} {fs : List CStr} :
    (∃ ds d, readFields isDecimal isDateSep isBlank dateRoom 3 [] [] s = some (ds, d) ∧ d ≠ [] ∧
      ds ++ [d] = fs) ↔
    ∃ t pad, s = t ++ pad ∧ Split isDecimal isDateSep t fs ∧ (∀ c ∈ pad, isBlank c = true) ∧
      Fit dateRoom 0 fs ∧ fs.length ≤ 3 :=
  readFields_iff isBlank_decimal isBlank_dateSep isDateSep_decimal (by decide)

theorem parseDateArg_iff (args : CStr) (v : RtcDate) :
    parseDateArg args = some v ↔ Padded isBlank (DateText · v) args := by
  rw [parseDateArg_fields, padded_iff fun t => DateText.head]
  constructor
  · rintro ⟨ds, d, hread, hd, hv⟩
    obtain ⟨t, pad, hs, hsplit, hpad, hfit, hlen⟩ := dateFields_iff.mp ⟨ds, d, hread, hd, rfl⟩
    exact ⟨t, pad, hs, dateText_iff.mpr ⟨_, hsplit, hfit, hlen, hv⟩, hpad⟩
  · rintro ⟨t, pad, hs, ht, hpad⟩
    obtain ⟨fs, hsplit, hfit, hlen, hv⟩ := dateText_iff.mp ht
    obtain ⟨ds, d, hread, hd, rfl⟩ := dateFields_iff.mpr ⟨t, pad, hs, hsplit, hpad, hfit, hlen⟩
    exact ⟨ds, d, hread, hd, hv⟩

/-- The parsers of `time` and `date` take their grammars, and no other text. -/
theorem clock_parsers_iff :
    (∀ (args : CStr) (time v : RtcTime),
      parseTimeArg args time = (true, v) ↔ Padded isBlank (TimeText · v) args) ∧
    (∀ (args : CStr) (v : RtcDate),
      parseDateArg args = some v ↔ Padded isBlank (DateText · v) args) :=
  ⟨parseTimeArg_iff, parseDateArg_iff⟩

end Args
end MiniDos
