import MiniDos.Apps.Model
import MiniDos.Fat.Name
import MiniDos.Lib.Fields

/-!
# MiniDos.Shell.Numbers

The shell's readers of unsigned numbers, `parse_uint_arg` of `shell.c` and
`shell_builtin_parse_uint_arg` of `shell_builtin.c`, and the `kill` command that uses the first.

The value is accumulated in 32 bits, so a numeral of `2 ^ 32` or more is read as another number.
-/

namespace MiniDos
namespace Args

open Fat16 Apps Fields

variable {v : UInt32}

/-! ## Characters -/

def isDecimal (c : Byte) : Bool := decide (0x30 ≤ c ∧ c ≤ 0x39)

/-- The digit that a character is, in base 16 if `hex`. -/
def digitOf (hex : Bool) (c : Byte) : Option UInt32 :=
  if isDecimal c then some (c - 0x30).toUInt32
  else if hex && decide (0x61 ≤ c ∧ c ≤ 0x66) then some (10 + (c - 0x61).toUInt32)
  else if hex && decide (0x41 ≤ c ∧ c ≤ 0x46) then some (10 + (c - 0x41).toUInt32)
  else none

def base (hex : Bool) : UInt32 := if hex then 16 else 10

/-! ## The parsers -/

/-- The loop over the digits: `value`, `digits` and what is left of the string. -/
def readDigits (hex : Bool) : UInt32 → Nat → CStr → UInt32 × Nat × CStr
  | value, digits, [] => (value, digits, [])
  | value, digits, c :: s =>
    match digitOf hex c with
    | some d => readDigits hex (value * base hex + d) (digits + 1) s
    | none => (value, digits, c :: s)

/-- What both parsers do from the first digit on. -/
def readNumber (hex : Bool) (s : CStr) : Option UInt32 :=
  let r := readDigits hex 0 0 s
  if r.2.1 = 0 ∨ r.2.2.dropWhile isBlank ≠ [] then none else some r.1

def parseUintArg (args : CStr) : Option UInt32 := readNumber false (args.dropWhile isBlank)

def hasHexPrefix (s : CStr) : Bool := s.at 0 == 0x30 && (s.at 1 == 0x78 || s.at 1 == 0x58)

/-- `shell_builtin_parse_uint_arg`. -/
def builtinParseUintArg (s : CStr) : Option UInt32 :=
  let s := s.dropWhile isBlank
  if hasHexPrefix s then readNumber true (s.drop 2) else readNumber false s

/-- `shell_apps_stop_background`, up to its loop; no record has a negative pid. -/
def stopBackground (m : Machine) (pid : Int) : Machine :=
  if pid < 0 then reapTerminatedTasks m else killStep m pid.toNat

/-- The command `kill`, with the cast of the pid to `int`. -/
def killCommand (m : Machine) (args : CStr) : Machine :=
  match parseUintArg args with
  | none => m
  | some pid => stopBackground m pid.toInt32.toInt

/-! ## What a numeral denotes -/

def digitValue (hex : Bool) (c : Byte) : Nat := ((digitOf hex c).getD 0).toNat

/-- A nonempty run of digits that denotes `n`. -/
def Digits (hex : Bool) (t : CStr) (n : Nat) : Prop :=
  t ≠ [] ∧ (∀ c ∈ t, (digitOf hex c).isSome = true) ∧
    n = number (base hex).toNat (digitValue hex) t

/-- A decimal numeral, or a hexadecimal one after its prefix. -/
def Numeral (t : CStr) (n : Nat) : Prop :=
  Digits false t n ∨ (hasHexPrefix t = true ∧ Digits true (t.drop 2) n)

/-! ## What is read -/

section Reading

variable {hex : Bool} {s t trail : CStr} {n m : Nat}

theorem digitOf_blank (hex : Bool) (c : Byte) (h : isBlank c = true) :
    (digitOf hex c).isSome = false := by
  have hc : c = chSpace ∨ c = 0x09 := by simpa [isBlank] using h
  rcases hc with rfl | rfl <;> cases hex <;> rfl

theorem digitOf_some {c : Byte} {d : UInt32} (h : digitOf hex c = some d) :
    digitValue hex c = d.toNat := by
  simp [digitValue, h]

theorem hasHexPrefix_iff : hasHexPrefix s = true ↔
    ∃ x r, s = 0x30 :: x :: r ∧ (x = 0x78 ∨ x = 0x58) := by
  unfold hasHexPrefix
  rw [Bool.and_eq_true, Bool.or_eq_true, beq_iff_eq, beq_iff_eq, beq_iff_eq]
  constructor
  · rintro ⟨h0, h1⟩
    match s with
    | [] => cases h0
    | [c] => rcases h1 with h1 | h1 <;> cases h1
    | c :: x :: r => exact ⟨x, r, congrArg (· :: x :: r) h0, h1⟩
  · rintro ⟨x, r, rfl, hx⟩
    exact ⟨rfl, hx⟩

theorem readDigits_eq (hex : Bool) (s : CStr) : ∀ done : CStr,
    readDigits hex (UInt32.ofNat (number (base hex).toNat (digitValue hex) done)) done.length s =
      let run := done ++ s.takeWhile (fun c => (digitOf hex c).isSome)
      (UInt32.ofNat (number (base hex).toNat (digitValue hex) run), run.length,
        s.dropWhile (fun c => (digitOf hex c).isSome)) := by
  induction s with
  | nil =>
    intro done
    simp [readDigits]
  | cons c s ih =>
    intro done
    cases hd : digitOf hex c with
    | none => simp [readDigits, hd]
    | some d =>
      have hstep := ih (done ++ [c])
      rw [number_concat, digitOf_some hd, UInt32.ofNat_add, UInt32.ofNat_mul, UInt32.ofNat_toNat,
        UInt32.ofNat_toNat, List.length_append, List.length_singleton] at hstep
      simp only [readDigits, hd, hstep, List.takeWhile_cons, List.dropWhile_cons, Option.isSome_some,
        if_true, List.append_assoc, List.singleton_append]

/-- The two parts of a string that the loops of a parser find. -/
def run (hex : Bool) (s : CStr) : CStr := s.takeWhile (fun c => (digitOf hex c).isSome)
def afterRun (hex : Bool) (s : CStr) : CStr := s.dropWhile (fun c => (digitOf hex c).isSome)

theorem run_digit {c : Byte} (h : c ∈ run hex s) : (digitOf hex c).isSome = true := by
  have hc := List.mem_takeWhile_imp h
  exact hc

theorem readNumber_eq (hex : Bool) (s : CStr) : readNumber hex s =
    if run hex s = [] ∨ (afterRun hex s).dropWhile isBlank ≠ [] then none
    else some (UInt32.ofNat (number (base hex).toNat (digitValue hex) (run hex s))) := by
  have h : readDigits hex 0 0 s =
      (UInt32.ofNat (number (base hex).toNat (digitValue hex) (run hex s)), (run hex s).length,
        afterRun hex s) := readDigits_eq hex s []
  simp only [readNumber, h, List.length_eq_zero_iff]

theorem readNumber_eq_some_iff : readNumber hex s = some v ↔
    ∃ n t trail, s = t ++ trail ∧ Digits hex t n ∧ (∀ c ∈ trail, isBlank c = true) ∧
      v = UInt32.ofNat n := by
  rw [readNumber_eq]
  constructor
  · intro h
    split at h
    case isTrue => cases h
    case isFalse hok =>
      obtain ⟨hne, hblank⟩ := not_or.mp hok
      refine ⟨_, run hex s, afterRun hex s, (List.takeWhile_append_dropWhile).symm,
        ⟨hne, fun c hc => run_digit hc, rfl⟩, ?_, (Option.some.inj h).symm⟩
      exact List.dropWhile_eq_nil_iff.mp (not_not.mp hblank)
  · rintro ⟨n, t, trail, rfl, ⟨hne, hd, rfl⟩, htrail, rfl⟩
    obtain ⟨htake, hdrop⟩ := run_append_pad (digitOf_blank hex) hd htrail
    rw [run, afterRun, htake, hdrop, List.dropWhile_eq_nil_iff.mpr htrail, if_neg (by simp [hne])]

theorem Digits.unique {t' trail' : CStr} (h : Digits hex t n) (h' : Digits hex t' m)
    (htrail : ∀ c ∈ trail, isBlank c = true) (htrail' : ∀ c ∈ trail', isBlank c = true)
    (heq : t ++ trail = t' ++ trail') : n = m := by
  have hrun := (run_append_pad (digitOf_blank hex) h.2.1 htrail).1
  rw [heq, (run_append_pad (digitOf_blank hex) h'.2.1 htrail').1] at hrun
  rw [h.2.2, h'.2.2, hrun]

theorem Digits.head (h : Digits hex t n) : ∃ c u, t = c :: u ∧ isBlank c = false := by
  obtain ⟨c, u, rfl⟩ := List.exists_cons_of_ne_nil h.1
  refine ⟨c, u, rfl, Bool.eq_false_iff.mpr fun hb => ?_⟩
  have hc := h.2.1 c (by simp)
  rw [digitOf_blank hex c hb] at hc
  cases hc

theorem at_mem {i : Nat} (h : s.at i ≠ 0) : s.at i ∈ s := by
  simp only [CStr.at, List.getD_eq_getElem?_getD] at h ⊢
  cases hi : s[i]? with
  | none => simp [hi] at h
  | some c => exact List.mem_of_getElem? hi

theorem Digits.not_prefix (h : Digits false t n) (htrail : ∀ c ∈ trail, isBlank c = true) :
    hasHexPrefix (t ++ trail) = false := by
  refine Bool.eq_false_iff.mpr fun hp => ?_
  have hx : (t ++ trail).at 1 = 0x78 ∨ (t ++ trail).at 1 = 0x58 := by
    simp only [hasHexPrefix, Bool.and_eq_true, Bool.or_eq_true, beq_iff_eq] at hp
    exact hp.2
  have hmem : (t ++ trail).at 1 ∈ t ++ trail := at_mem (by rcases hx with hx | hx <;> simp [hx])
  rcases List.mem_append.mp hmem with hm | hm
  · have hd := h.2.1 _ hm
    rcases hx with hx | hx <;> rw [hx] at hd <;> cases hd
  · have hb := htrail _ hm
    rcases hx with hx | hx <;> rw [hx] at hb <;> cases hb

theorem Numeral.head (h : Numeral t n) : ∃ c u, t = c :: u ∧ isBlank c = false := by
  rcases h with h | ⟨hp, _⟩
  · exact h.head
  · obtain ⟨x, r, rfl, _⟩ := hasHexPrefix_iff.mp hp
    exact ⟨0x30, x :: r, rfl, by decide⟩

theorem hasHexPrefix_append (h : hasHexPrefix t = true) : hasHexPrefix (t ++ trail) = true := by
  obtain ⟨x, r, rfl, hx⟩ := hasHexPrefix_iff.mp h
  exact hasHexPrefix_iff.mpr ⟨x, r ++ trail, rfl, hx⟩

theorem drop_two_append (h : hasHexPrefix t = true) :
    (t ++ trail).drop 2 = t.drop 2 ++ trail := by
  obtain ⟨x, r, rfl, _⟩ := hasHexPrefix_iff.mp h
  rfl

theorem Numeral.unique {t' trail' : CStr} (h : Numeral t n) (h' : Numeral t' m)
    (htrail : ∀ c ∈ trail, isBlank c = true) (htrail' : ∀ c ∈ trail', isBlank c = true)
    (heq : t ++ trail = t' ++ trail') : n = m := by
  rcases h with h | ⟨hp, h⟩ <;> rcases h' with h' | ⟨hp', h'⟩
  · exact h.unique h' htrail htrail' heq
  · have hno := h.not_prefix htrail
    rw [heq, hasHexPrefix_append hp'] at hno
    cases hno
  · have hno := h'.not_prefix htrail'
    rw [← heq, hasHexPrefix_append hp] at hno
    cases hno
  · refine h.unique h' htrail htrail' ?_
    rw [← drop_two_append hp, heq, drop_two_append hp']

/-! ## The parsers -/

theorem parseUintArg_eq_some_iff : parseUintArg s = some v ↔
    ∃ n, Padded isBlank (Digits false · n) s ∧ v = UInt32.ofNat n := by
  simp only [padded_iff fun t => Digits.head, parseUintArg, readNumber_eq_some_iff]
  constructor
  · rintro ⟨n, t, trail, hs, hd, htrail, hv⟩
    exact ⟨n, ⟨t, trail, hs, hd, htrail⟩, hv⟩
  · rintro ⟨n, ⟨t, trail, hs, hd, htrail⟩, hv⟩
    exact ⟨n, t, trail, hs, hd, htrail, hv⟩

theorem builtinParseUintArg_eq_some_iff : builtinParseUintArg s = some v ↔
    ∃ n, Padded isBlank (Numeral · n) s ∧ v = UInt32.ofNat n := by
  simp only [padded_iff fun t => Numeral.head, builtinParseUintArg]
  generalize s.dropWhile isBlank = s
  constructor
  · intro h
    split at h
    case isTrue hp =>
      obtain ⟨n, t, trail, hs, hd, htrail, hv⟩ := readNumber_eq_some_iff.mp h
      obtain ⟨x, r, rfl, hx⟩ := hasHexPrefix_iff.mp hp
      obtain rfl : r = t ++ trail := hs
      exact ⟨n, ⟨0x30 :: x :: t, trail, rfl, .inr ⟨hasHexPrefix_iff.mpr ⟨x, t, rfl, hx⟩, hd⟩,
        htrail⟩, hv⟩
    case isFalse =>
      obtain ⟨n, t, trail, hs, hd, htrail, hv⟩ := readNumber_eq_some_iff.mp h
      exact ⟨n, ⟨t, trail, hs, .inl hd, htrail⟩, hv⟩
  · rintro ⟨n, ⟨t, trail, rfl, h | ⟨hp, h⟩, htrail⟩, hv⟩
    · rw [if_neg (by rw [h.not_prefix htrail]; decide)]
      exact readNumber_eq_some_iff.mpr ⟨n, t, trail, rfl, h, htrail, hv⟩
    · rw [if_pos (hasHexPrefix_append hp)]
      exact readNumber_eq_some_iff.mpr ⟨n, t.drop 2, trail, drop_two_append hp, h, htrail, hv⟩

theorem exact_iff {P : CStr → Nat → Prop} {parsed : Option UInt32}
    (hparse : ∀ v, parsed = some v ↔ ∃ n, Padded isBlank (P · n) s ∧ v = UInt32.ofNat n)
    (hunique : ∀ n m, Padded isBlank (P · n) s → Padded isBlank (P · m) s → n = m) :
    (∀ v : UInt32, parsed = some v ↔ Padded isBlank (P · v.toNat) s) ↔
      ∀ n, Padded isBlank (P · n) s → n < 2 ^ 32 := by
  constructor
  · intro h n hn
    have hv := (h _).mp ((hparse _).mpr ⟨n, hn, rfl⟩)
    rw [hunique n _ hn hv]
    exact UInt32.toNat_lt _
  · intro h v
    rw [hparse]
    constructor
    · rintro ⟨n, hn, rfl⟩
      rwa [UInt32.toNat_ofNat_of_lt' (h n hn)]
    · exact fun hv => ⟨_, hv, (UInt32.ofNat_toNat).symm⟩

theorem Padded.unique {P : CStr → Nat → Prop}
    (hhead : ∀ n t, P t n → ∃ c u, t = c :: u ∧ isBlank c = false)
    (hP : ∀ {t t' trail trail' : CStr} {n m : Nat}, P t n → P t' m →
      (∀ c ∈ trail, isBlank c = true) → (∀ c ∈ trail', isBlank c = true) →
      t ++ trail = t' ++ trail' → n = m)
    (hn : Padded isBlank (P · n) s) (hm : Padded isBlank (P · m) s) : n = m := by
  obtain ⟨t, trail, hs, ht, htrail⟩ := (padded_iff (hhead n)).mp hn
  obtain ⟨t', trail', hs', ht', htrail'⟩ := (padded_iff (hhead m)).mp hm
  exact hP ht ht' htrail htrail' (hs.symm.trans hs')

end Reading

/-! ## The command -/

/-- `kill` does nothing to a task, or it stops the one whose pid was typed. -/
def KillsTyped (m : Machine) (s : CStr) : Prop :=
  killCommand m s = m ∨ killCommand m s = reapTerminatedTasks m ∨
    ∃ n, Padded isBlank (Digits false · n) s ∧ killCommand m s = killStep m n

theorem toNat_toInt32 (h : ¬ v.toInt32.toInt < 0) : v.toInt32.toInt.toNat = v.toNat := by
  have hv : v.toInt32.toInt = v.toBitVec.toInt := rfl
  rw [hv, BitVec.toInt_eq_toNat_cond] at h ⊢
  split at h
  case isTrue hlt =>
    rw [if_pos hlt]
    rfl
  case isFalse =>
    have hlt := v.toBitVec.isLt
    omega

theorem killsTyped {s : CStr} (h : ∀ n, Padded isBlank (Digits false · n) s → n < 2 ^ 32)
    (m : Machine) : KillsTyped m s := by
  cases hp : parseUintArg s with
  | none => exact .inl (by simp [killCommand, hp])
  | some v =>
    obtain ⟨n, hn, rfl⟩ := parseUintArg_eq_some_iff.mp hp
    have hlt := h n hn
    simp only [KillsTyped, killCommand, hp, stopBackground]
    split
    case isTrue => exact .inr (.inl rfl)
    case isFalse hneg =>
      refine .inr (.inr ⟨n, hn, ?_⟩)
      rw [toNat_toInt32 hneg, UInt32.toNat_ofNat_of_lt' hlt]

/-! ## Exactness -/

theorem parseUintArg_exact_iff (s : CStr) :
    (∀ v : UInt32, parseUintArg s = some v ↔ Padded isBlank (Digits false · v.toNat) s) ↔
      ∀ n, Padded isBlank (Digits false · n) s → n < 2 ^ 32 :=
  exact_iff (fun _ => parseUintArg_eq_some_iff) fun _ _ =>
    Padded.unique (fun _ _ => Digits.head) Digits.unique

theorem builtinParseUintArg_exact_iff (s : CStr) :
    (∀ v : UInt32, builtinParseUintArg s = some v ↔ Padded isBlank (Numeral · v.toNat) s) ↔
      ∀ n, Padded isBlank (Numeral · n) s → n < 2 ^ 32 :=
  exact_iff (fun _ => builtinParseUintArg_eq_some_iff) fun _ _ =>
    Padded.unique (fun _ _ => Numeral.head) Numeral.unique

/-- Both parsers take what they are to take, with the value that it denotes, and `kill` stops no
other task, for just the strings that do not denote `2 ^ 32` or more. -/
theorem parsers_exact_iff (s : CStr) :
    ((∀ v : UInt32, parseUintArg s = some v ↔ Padded isBlank (Digits false · v.toNat) s) ∧
      (∀ v : UInt32, builtinParseUintArg s = some v ↔ Padded isBlank (Numeral · v.toNat) s) ∧
      ∀ m, KillsTyped m s) ↔
    ∀ n, Padded isBlank (Numeral · n) s → n < 2 ^ 32 := by
  constructor
  · exact fun h => (builtinParseUintArg_exact_iff s).mp h.2.1
  · intro h
    have hlt : ∀ n, Padded isBlank (Digits false · n) s → n < 2 ^ 32 :=
      fun n ⟨lead, t, trail, hs, hlead, ht, htrail⟩ =>
        h n ⟨lead, t, trail, hs, hlead, .inl ht, htrail⟩
    exact ⟨(parseUintArg_exact_iff s).mpr hlt, (builtinParseUintArg_exact_iff s).mpr h, killsTyped hlt⟩

/-- The string `4294967299`, and a program that runs with pid 3. -/
def pastWord : CStr := [0x34, 0x32, 0x39, 0x34, 0x39, 0x36, 0x37, 0x32, 0x39, 0x39]

def runningThree : Machine :=
  let m := (boot 0 1 0).setTask 3 ⟨true, 3, 3, true, false, false, 0, 0, none⟩
  { m with sched := m.sched.setState 3 .ready }

theorem pastWord_kills_three : Padded isBlank (Digits false · 4294967299) pastWord ∧
    parseUintArg pastWord = some 3 ∧ builtinParseUintArg pastWord = some 3 ∧
    (killCommand runningThree pastWord).shell = .killing 3 3 ∧
    ¬ KillsTyped runningThree pastWord := by
  have hden : Padded isBlank (Digits false · 4294967299) pastWord :=
    ⟨[], pastWord, [], by simp, by simp, ⟨by decide, by decide +kernel, by decide⟩, by simp⟩
  have hkill : (killCommand runningThree pastWord).shell = .killing 3 3 := by decide
  refine ⟨hden, by decide, by decide, hkill, ?_⟩
  rintro (h | h | ⟨n, hn, h⟩)
  · rw [h] at hkill
    cases hkill
  · rw [h] at hkill
    revert hkill
    decide
  · obtain rfl : n = 4294967299 := Padded.unique (fun _ _ => Digits.head) Digits.unique hn hden
    rw [h] at hkill
    revert hkill
    decide

end Args
end MiniDos
