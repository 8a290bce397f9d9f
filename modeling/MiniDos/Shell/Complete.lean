import MiniDos.Fat.Listing
import MiniDos.Files.Shell
import Mathlib.Data.List.DropRight

/-!
# MiniDos.Shell.Complete

Completion at the prompt, `shell_autocomplete_apply` of `shell.c`, and what a press of Tab does to
the line as text.

* The word behind the last blank is completed. A session remembers where it starts and the word in
  upper case, and which of the names that begin with it is next.
* `wp_autocompleteApply`: over a directory of a well-formed volume a press is `pressText` of the
  names that it lists.
-/

namespace MiniDos
namespace Complete

open BlockIO Fat16 Files

/-! ## The code -/

/-- `autocomplete_active` and the other statics; the prefix is `stem`. -/
structure Session where
  active : Bool
  tokenStart : Nat
  nextMatch : Nat
  stem : CStr
  deriving DecidableEq

/-- `shell_autocomplete_reset`. -/
def Session.reset : Session := ⟨false, 0, 0, []⟩

/-- The line buffer, and how much of it is typed. -/
structure Line where
  buffer : Nat → Byte
  len : Nat

/-- `sizeof(prefix_upper)` and of the buffers for names. -/
def nameRoom : Nat := 13

/-- `str_copy_raw` into such a buffer. -/
def copyRaw (s : CStr) : CStr := s.take (nameRoom - 1)

/-- The place behind the last blank of the first `i` bytes. -/
def tokenStart (b : Nat → Byte) : Nat → Nat
  | 0 => 0
  | i + 1 => if isBlank (b i) then i + 1 else tokenStart b i

/-- `prefix_upper`. -/
def prefixUpper (line : Line) : CStr :=
  let start := tokenStart line.buffer line.len
  let tokenLen := if nameRoom ≤ line.len - start then nameRoom - 1 else line.len - start
  shown ((List.range tokenLen).map fun i => upperChar (line.buffer (start + i)))

/-- The session goes on, or a new one begins. -/
def resume (st : Session) (start : Nat) (stem : CStr) : Session :=
  if st.active = false ∨ st.tokenStart ≠ start ∨ st.stem ≠ stem then ⟨true, start, 0, copyRaw stem⟩
  else st

/-- `prefix_matches_upper`. -/
def prefixMatches (text stem : CStr) : Bool := stem.isPrefixOf text

def place (line : Line) (start : Nat) (name : CStr) : Line where
  buffer i :=
    if start ≤ i ∧ i < start + name.length then name.getD (i - start) 0
    else if i = start + name.length then 0
    else line.buffer i
  len := start + name.length

/-- What follows the choice of a name, number `pos` of `count`. -/
def finish (maxLen : Nat) (st : Session) (line : Line) (start count pos : Nat) (name : CStr) :
    Bool × Session × Line :=
  if maxLen ≤ start + name.length then (false, st, line)
  else
    (true, { st with nextMatch := if count ≤ pos + 1 then 0 else pos + 1 }, place line start name)

section Code

variable (g : Globals) (fuel dir : Nat)

/-- The loop over the entries from `i` on: how many match, and the one with number `target`. -/
def selectFrom (stem : CStr) (target : Nat) :
    Nat → Nat → Nat → Option CStr → DiskProg (Nat × Option CStr)
  | 0, _, _, _ => diverge
  | n + 1, i, count, found => do
    let r ← getEntryByIndex g fuel dir i
    match r with
    | none => pure (count, found)
    | some (entryName, _, _) =>
      let entryName := shown entryName
      if prefixMatches entryName stem then
        selectFrom stem target n (i + 1) (count + 1)
          (if count = target then some (copyRaw entryName) else found)
      else selectFrom stem target n (i + 1) count found

/-- The loop for the first entry that matches. -/
def firstFrom (stem : CStr) : Nat → Nat → DiskProg (Option CStr)
  | 0, _ => diverge
  | n + 1, i => do
    let r ← getEntryByIndex g fuel dir i
    match r with
    | none => pure none
    | some (entryName, _, _) =>
      let entryName := shown entryName
      if prefixMatches entryName stem then pure (some (copyRaw entryName))
      else firstFrom stem n (i + 1)

/-- `shell_autocomplete_apply`, with loops over at most `n` entries; `ready` is what
`ensure_fat16_ready` gives. -/
def autocompleteApply (n : Nat) (ready : Bool) (maxLen : Nat) (st : Session) (line : Line) :
    DiskProg (Bool × Session × Line) :=
  if maxLen ≤ line.len ∨ maxLen ≤ 1 then pure (false, st, line)
  else if ready = false then pure (false, st, line)
  else do
    let start := tokenStart line.buffer line.len
    let st := resume st start (prefixUpper line)
    let (count, found) ← selectFrom g fuel dir st.stem st.nextMatch n 0 0 none
    if count = 0 then pure (false, .reset, line)
    else
      match found with
      | some name => pure (finish maxLen st line start count st.nextMatch name)
      | none => do
        let found ← firstFrom g fuel dir st.stem n 0
        match found with
        | none => pure (false, .reset, line)
        | some name => pure (finish maxLen st line start 0 0 name)

/-- `k` presses of Tab, one after the other. -/
def tabs (n : Nat) (maxLen : Nat) : Nat → Session → Line → DiskProg (Session × Line)
  | 0, st, line => pure (st, line)
  | k + 1, st, line => do
    let (_, st, line) ← autocompleteApply g fuel dir n true maxLen st line
    tabs n maxLen k st line

end Code

/-! ## The line as text -/

def Line.text (line : Line) : List Byte := (List.range line.len).map line.buffer

@[simp] theorem Line.text_length (line : Line) : line.text.length = line.len := by
  simp [Line.text]

/-- The word that is completed, and what stands before it. -/
def lastWord (x : List Byte) : List Byte := x.rtakeWhile fun c => !isBlank c
def before (x : List Byte) : List Byte := x.rdropWhile fun c => !isBlank c

@[simp] theorem before_append_lastWord (x : List Byte) : before x ++ lastWord x = x :=
  List.rdropWhile_append_rtakeWhile

theorem before_length_le (x : List Byte) : (before x).length ≤ x.length :=
  (List.rdropWhile_prefix _ x).length_le

def stemOf (x : List Byte) : CStr := shown (((lastWord x).take (nameRoom - 1)).map upperChar)

theorem tokenStart_eq (b : Nat → Byte) (n : Nat) :
    tokenStart b n = (before ((List.range n).map b)).length := by
  induction n with
  | zero => simp [tokenStart, before]
  | succ n ih =>
    rw [List.range_succ, List.map_append, tokenStart]
    by_cases h : isBlank (b n) = true
    · rw [if_pos h, before, List.map_singleton, List.rdropWhile_concat_neg _ _ _ (by simp [h])]
      simp
    · rw [if_neg h, ih, before, before, List.map_singleton,
        List.rdropWhile_concat_pos _ _ _ (by simp [h])]

theorem lastWord_eq_drop (x : List Byte) : lastWord x = x.drop (before x).length := by
  have h := congrArg (List.drop (before x).length) (before_append_lastWord x)
  rwa [List.drop_left] at h

theorem prefixUpper_eq (line : Line) : prefixUpper line = stemOf line.text := by
  have hstart : tokenStart line.buffer line.len = (before line.text).length :=
    tokenStart_eq line.buffer line.len
  simp only [prefixUpper, stemOf, hstart]
  congr 1
  have hlen : (lastWord line.text).length = line.len - (before line.text).length := by
    rw [lastWord_eq_drop, List.length_drop, Line.text_length]
  refine List.ext_getElem ?_ fun i hi hi' => ?_
  · rw [List.length_map, List.length_map, List.length_take, List.length_range, hlen]
    split <;> omega
  · simp [lastWord_eq_drop, Line.text]

theorem place_text {line : Line} {start : Nat} (h : start ≤ line.len) (name : CStr) :
    (place line start name).text = line.text.take start ++ name := by
  refine List.ext_getElem ?_ fun i hi hi' => ?_
  · simp [place, h]
  · have hlen : i < start + name.length := by simpa [place] using hi
    by_cases hs : start ≤ i
    · rw [List.getElem_append_right (by simp; omega)]
      simp only [Line.text, place, List.getElem_map, List.getElem_range, hs, hlen, and_self, if_true,
        List.length_take, List.length_map, List.length_range, Nat.min_eq_left h]
      rw [List.getD_eq_getElem?_getD, List.getElem?_eq_getElem (by omega), Option.getD_some]
    · rw [List.getElem_append_left (by simp; omega)]
      simp [Line.text, place, hs, show i ≠ start + name.length by omega]

/-! ## Over a directory that stays as it is -/

/-- The names that begin with `stem`, in the order of the listing. -/
def matching (names : List CStr) (stem : CStr) : List CStr :=
  names.filter fun name => prefixMatches name stem

def pressText (names : List CStr) (maxLen : Nat) (st : Session) (x : List Byte) :
    Session × List Byte :=
  let start := (before x).length
  let st := resume st start (stemOf x)
  let found := matching names st.stem
  if found = [] then (.reset, x)
  else
    let name := found.getD st.nextMatch (found.headD [])
    let next := if found.length ≤ st.nextMatch + 1 then 0 else st.nextMatch + 1
    if maxLen ≤ start + name.length then (st, x)
    else ({ st with nextMatch := next }, before x ++ name)

/-- `k` presses. -/
def tabsText (names : List CStr) (maxLen : Nat) : Nat → Session → List Byte → Session × List Byte
  | 0, st, x => (st, x)
  | k + 1, st, x =>
    let r := pressText names maxLen st x
    tabsText names maxLen k r.1 r.2

/-- The loop of `selectFrom` over the names left. -/
def selectIn (stem : CStr) (target : Nat) :
    List CStr → Nat → Option CStr → Nat × Option CStr
  | [], count, found => (count, found)
  | name :: names, count, found =>
    if prefixMatches name stem then
      selectIn stem target names (count + 1) (if count = target then some name else found)
    else selectIn stem target names count found

theorem selectIn_eq (stem : CStr) (target : Nat) (names : List CStr) : ∀ count found,
    selectIn stem target names count found =
      (count + (matching names stem).length,
        if target < count then found
        else ((matching names stem)[target - count]?).or found) := by
  induction names with
  | nil =>
    intro count found
    simp [selectIn, matching]
  | cons name names ih =>
    intro count found
    simp only [selectIn]
    by_cases h : prefixMatches name stem = true
    · have hmatch : matching (name :: names) stem = name :: matching names stem := by
        simp [matching, h]
      rw [if_pos h, ih, hmatch]
      refine Prod.ext (by simp; omega) ?_
      obtain hlt | rfl | hgt := Nat.lt_trichotomy target count
      · simp [hlt, show target < count + 1 by omega, show count ≠ target by omega]
      · simp
      · have hsub : target - count = (target - (count + 1)) + 1 := by omega
        simp [show ¬ target < count by omega, show ¬ target < count + 1 by omega,
          show count ≠ target by omega, hsub]
    · have hmatch : matching (name :: names) stem = matching names stem := by
        simp [matching, h]
      rw [if_neg h, ih, hmatch]

theorem stemOf_length_le (x : List Byte) : (stemOf x).length ≤ nameRoom - 1 := by
  refine Nat.le_trans (shown_length_le _) ?_
  rw [List.length_map, List.length_take]
  exact Nat.min_le_left _ _

@[simp] theorem copyRaw_stemOf (x : List Byte) : copyRaw (stemOf x) = stemOf x :=
  List.take_of_length_le (stemOf_length_le x)

def listing (d : Disk) (ps : List Slot) : List CStr :=
  (visibleSlots d ps).map fun p => shown (buildDisplayName (entryAt d p))

theorem listing_length_le {d : Disk} {ps : List Slot} {name : CStr} (h : name ∈ listing d ps) :
    name.length ≤ nameRoom - 1 := by
  obtain ⟨p, -, rfl⟩ := List.mem_map.mp h
  exact Nat.le_trans (shown_length_le _) (buildDisplayName_length _)

theorem listing_not_zero {d : Disk} {ps : List Slot} {name : CStr} (h : name ∈ listing d ps) :
    (0 : Byte) ∉ name := by
  obtain ⟨p, -, rfl⟩ := List.mem_map.mp h
  exact fun h0 => ne_zero_of_mem_shown h0 rfl

/-! ## The buffer -/

/-- A line that grew out of another one within its buffer: there is room for its NUL, which is there
if it was, and what lies beyond `maxLen` was not written. -/
structure Kept (maxLen : Nat) (line line' : Line) : Prop where
  fits : line'.len < maxLen
  ended : line.buffer line.len = 0 → line'.buffer line'.len = 0
  outside : ∀ i, maxLen ≤ i → line'.buffer i = line.buffer i

namespace Kept

variable {maxLen : Nat} {line line' line'' : Line}

theorem refl (hlen : line.len < maxLen) : Kept maxLen line line := ⟨hlen, id, fun _ _ => rfl⟩

theorem trans (h : Kept maxLen line line') (h' : Kept maxLen line' line'') :
    Kept maxLen line line'' :=
  ⟨h'.fits, fun h0 => h'.ended (h.ended h0), fun i hi => (h'.outside i hi).trans (h.outside i hi)⟩

theorem finish (h : Kept maxLen line line) (st : Session) (start count pos : Nat) (name : CStr) :
    Kept maxLen line (finish maxLen st line start count pos name).2.2 := by
  unfold Complete.finish
  split
  case isTrue => exact h
  case isFalse hfit =>
    refine ⟨by simp only [place]; omega, fun _ => by simp [place], fun i hi => ?_⟩
    simp [place, show ¬ i < start + name.length by omega, show i ≠ start + name.length by omega]

end Kept

theorem autocompleteApply_kept (g : Globals) (fuel dir n : Nat) (ready : Bool) {maxLen : Nat}
    (st : Session) {line : Line} (hlen : line.len < maxLen) (m : DriverMem) :
    (autocompleteApply g fuel dir n ready maxLen st line).wp .noisy
      (fun r _ => Kept maxLen line r.2.2) m := by
  have h : Kept maxLen line line := .refl hlen
  unfold autocompleteApply
  split
  · exact h
  · split
    · exact h
    · simp only [Prog.wp_bind]
      refine Prog.wp_mono (Prog.wp_noisy _ m) ?_
      rintro ⟨count, found⟩ m₁ -
      simp only
      split
      · exact h
      · cases found with
        | some name => exact h.finish _ _ _ _ name
        | none =>
          simp only [Prog.wp_bind]
          refine Prog.wp_mono (Prog.wp_noisy _ m₁) ?_
          rintro found m₂ -
          cases found with
          | none => exact h
          | some name => exact h.finish _ _ _ _ name

/-! ## A press on a well-formed volume -/

section Volume

variable {ctx : Ctx Buffer Sector} {g : Globals} {d : Disk} {dir fuel : Nat} {l : List Nat}
  (hg : g.Valid) (hf : ¬ ctx.Faulty) (hd : DirOk g d dir l) (hfuel : g.getTotalClusters ≤ fuel)

include hg hf hd hfuel

theorem wp_entry {m : DriverMem} (hm : m.disk = d) (i : Nat) :
    (getEntryByIndex g fuel dir i).wp ctx (fun r m' => m'.disk = d ∧
      (r.map fun x => shown x.1) = (listing d (dirSlots g dir l))[i]?) m := by
  subst hm
  refine Prog.wp_mono (wp_getEntryByIndex hg hf hd hfuel i) ?_
  rintro r m' ⟨hdisk, rfl⟩
  refine ⟨hdisk, ?_⟩
  rw [listing, List.getElem?_map, Option.map_map]
  rfl

theorem wp_selectFrom (stem : CStr) (target : Nat) : ∀ (n i count : Nat) (found : Option CStr)
    (m : DriverMem), m.disk = d → i ≤ (listing d (dirSlots g dir l)).length →
      (listing d (dirSlots g dir l)).length < i + n →
      (selectFrom g fuel dir stem target n i count found).wp ctx (fun r m' => m'.disk = d ∧
        r = selectIn stem target ((listing d (dirSlots g dir l)).drop i) count found) m := by
  intro n
  induction n with
  | zero =>
    intro i count found m hm hi hn
    omega
  | succ n ih =>
    intro i count found m hm _ hn
    unfold selectFrom
    simp only [Prog.wp_bind]
    refine Prog.wp_mono (wp_entry hg hf hd hfuel hm i) ?_
    rintro r m₁ ⟨hm₁, hr⟩
    cases r with
    | none =>
      have hend : (listing d (dirSlots g dir l)).drop i = [] :=
        List.drop_eq_nil_of_le (List.getElem?_eq_none_iff.mp hr.symm)
      rw [hend]
      exact ⟨hm₁, rfl⟩
    | some x =>
      obtain ⟨name, isDir, size⟩ := x
      obtain ⟨hi, hname⟩ := List.getElem?_eq_some_iff.mp hr.symm
      have hroom : copyRaw (shown name) = shown name :=
        List.take_of_length_le (listing_length_le (hname ▸ List.getElem_mem hi))
      rw [List.drop_eq_getElem_cons hi, hname]
      simp only [selectIn, hroom]
      split
      · exact ih (i + 1) _ _ m₁ hm₁ hi (by omega)
      · exact ih (i + 1) _ _ m₁ hm₁ hi (by omega)

theorem wp_firstFrom (stem : CStr) : ∀ (n i : Nat) (m : DriverMem), m.disk = d →
    i ≤ (listing d (dirSlots g dir l)).length → (listing d (dirSlots g dir l)).length < i + n →
      (firstFrom g fuel dir stem n i).wp ctx (fun r m' => m'.disk = d ∧
        r = (matching ((listing d (dirSlots g dir l)).drop i) stem).head?) m := by
  intro n
  induction n with
  | zero =>
    intro i m hm hi hn
    omega
  | succ n ih =>
    intro i m hm _ hn
    unfold firstFrom
    simp only [Prog.wp_bind]
    refine Prog.wp_mono (wp_entry hg hf hd hfuel hm i) ?_
    rintro r m₁ ⟨hm₁, hr⟩
    cases r with
    | none =>
      have hend : (listing d (dirSlots g dir l)).drop i = [] :=
        List.drop_eq_nil_of_le (List.getElem?_eq_none_iff.mp hr.symm)
      rw [hend]
      exact ⟨hm₁, rfl⟩
    | some x =>
      obtain ⟨name, isDir, size⟩ := x
      obtain ⟨hi, hname⟩ := List.getElem?_eq_some_iff.mp hr.symm
      have hroom : copyRaw (shown name) = shown name :=
        List.take_of_length_le (listing_length_le (hname ▸ List.getElem_mem hi))
      rw [List.drop_eq_getElem_cons hi, hname]
      by_cases h : prefixMatches (shown name) stem = true
      · simp only [h, if_true, hroom, matching, List.filter_cons]
        exact ⟨hm₁, rfl⟩
      · simp only [h, matching, List.filter_cons]
        exact ih (i + 1) m₁ hm₁ hi (by omega)

theorem wp_autocompleteApply {n maxLen : Nat} (hn : (listing d (dirSlots g dir l)).length < n)
    (st : Session) {line : Line} (hlen : line.len < maxLen) (hmax : 1 < maxLen) {m : DriverMem}
    (hm : m.disk = d) : (autocompleteApply g fuel dir n true maxLen st line).wp ctx
      (fun r m' => m'.disk = d ∧
        (r.2.1, r.2.2.text) = pressText (listing d (dirSlots g dir l)) maxLen st line.text) m := by
  have hstart : tokenStart line.buffer line.len = (before line.text).length :=
    tokenStart_eq line.buffer line.len
  have hle : (before line.text).length ≤ line.len := by
    simpa using before_length_le line.text
  have hplace : ∀ name, (place line (before line.text).length name).text =
      before line.text ++ name := by
    intro name
    rw [place_text hle]
    congr 1
    exact List.prefix_iff_eq_take.mp (List.rdropWhile_prefix _ _) |>.symm
  unfold autocompleteApply pressText
  rw [if_neg (by omega), if_neg (by decide), hstart, prefixUpper_eq]
  simp only [Prog.wp_bind]
  generalize resume st (before line.text).length (stemOf line.text) = st'
  refine Prog.wp_mono (wp_selectFrom hg hf hd hfuel st'.stem st'.nextMatch n 0 0 none m hm
    (Nat.zero_le _) (by omega)) ?_
  rintro ⟨count, found⟩ m₁ ⟨hm₁, hsel⟩
  rw [List.drop_zero, selectIn_eq] at hsel
  simp only [Nat.zero_add, Nat.not_lt_zero, if_false, Nat.sub_zero, Option.or_none,
    Prod.mk.injEq] at hsel
  obtain ⟨rfl, rfl⟩ := hsel
  have hfinish : ∀ (count pos : Nat) (name : CStr) (next : Nat),
      (if count ≤ pos + 1 then 0 else pos + 1) = next →
      ((finish maxLen st' line (before line.text).length count pos name).2.1,
        (finish maxLen st' line (before line.text).length count pos name).2.2.text) =
      if maxLen ≤ (before line.text).length + name.length then (st', line.text)
      else ({ st' with nextMatch := next }, before line.text ++ name) := by
    rintro count pos name next rfl
    unfold finish
    split
    · rfl
    · simp only [hplace]
  cases hms : matching (listing d (dirSlots g dir l)) st'.stem with
  | nil => exact ⟨hm₁, rfl⟩
  | cons first more =>
    simp only [List.length_cons, Nat.add_eq_zero_iff, Nat.one_ne_zero, and_false, if_false,
      reduceCtorEq]
    cases hat : (first :: more)[st'.nextMatch]? with
    | some name =>
      have hget : (first :: more).getD st'.nextMatch first = name := by
        rw [List.getD_eq_getElem?_getD, hat, Option.getD_some]
      simp only [List.headD_cons, hget]
      exact ⟨hm₁, hfinish _ _ name _ rfl⟩
    | none =>
      have hpast : more.length + 1 ≤ st'.nextMatch := by
        simpa using List.getElem?_eq_none_iff.mp hat
      have hget : (first :: more).getD st'.nextMatch first = first := by
        rw [List.getD_eq_getElem?_getD, hat, Option.getD_none]
      simp only [Prog.wp_bind, List.headD_cons, hget]
      refine Prog.wp_mono (wp_firstFrom hg hf hd hfuel st'.stem n 0 m₁ hm₁ (Nat.zero_le _)
        (by omega)) ?_
      rintro found m₂ ⟨hm₂, rfl⟩
      rw [List.drop_zero, hms]
      exact ⟨hm₂, hfinish 0 0 first _ (by simp; omega)⟩

theorem wp_tabs {n maxLen : Nat} (hn : (listing d (dirSlots g dir l)).length < n)
    (hmax : 1 < maxLen) : ∀ (k : Nat) (st : Session) (line : Line) (m : DriverMem),
      line.len < maxLen → m.disk = d → (tabs g fuel dir n maxLen k st line).wp ctx
        (fun r m' => m'.disk = d ∧ Kept maxLen line r.2 ∧
          (r.1, r.2.text) = tabsText (listing d (dirSlots g dir l)) maxLen k st line.text) m := by
  intro k
  induction k with
  | zero => exact fun st line m hline hm => ⟨hm, .refl hline, rfl⟩
  | succ k ih =>
    intro st line m hline hm
    simp only [tabs, Prog.wp_bind]
    refine Prog.wp_mono (Prog.wp_and_noisy
      (wp_autocompleteApply hg hf hd hfuel hn st hline hmax hm)
      (autocompleteApply_kept g fuel dir n true st hline m)) ?_
    rintro ⟨done, st₁, line₁⟩ m₁ ⟨⟨hm₁, htext⟩, hkept⟩
    refine Prog.wp_mono (ih st₁ line₁ m₁ hkept.fits hm₁) ?_
    rintro r m₂ ⟨hm₂, hkept₂, hr⟩
    refine ⟨hm₂, hkept.trans hkept₂, ?_⟩
    rw [hr, tabsText, ← htext]

end Volume

end Complete
end MiniDos
