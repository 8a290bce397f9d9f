import MiniDos.Shell.Script

/-!
# MiniDos.Shell.Lines

The lines of a script of text, and that they are executed.

* `scriptLines`: the text split at line feeds, trimmed, without blank and `REM` lines.
* `NonRecursive`: no script leads back to itself.
* `aut_runs_its_lines`: a script whose unread part is spared by the scripts that its lines run.
-/

namespace MiniDos
namespace Script

open Fat16 Files

/-! ## Text -/

def textLine (l : List Byte) : CStr := trim (l.filter (· ≠ chCr))

def scriptLines (c : List Byte) : List CStr := ((c.splitOn chLf).map textLine).filter isCommand

/-- The lines fit, and no byte ends a string. -/
structure IsText (c : List Byte) : Prop where
  short : ∀ l ∈ c.splitOn chLf, (l.filter (· ≠ chCr)).length ≤ 63
  noNul : 0 ∉ c

theorem splitOn_cases (bytes : List Byte) :
    (bytes.splitOn chLf = [bytes] ∧ bytes.takeWhile (· ≠ chLf) = bytes ∧ afterLine bytes = []) ∨
      ∃ l rest, bytes = l ++ chLf :: rest ∧ bytes.splitOn chLf = l :: rest.splitOn chLf ∧
        bytes.takeWhile (· ≠ chLf) = l ∧ afterLine bytes = rest := by
  by_cases hin : chLf ∈ bytes
  · obtain ⟨l, rest, rfl, hl⟩ := List.eq_append_cons_of_mem hin
    have hall : ∀ b ∈ l, decide (b ≠ chLf) = true := by
      intro b hb
      exact decide_eq_true (fun h => hl (h ▸ hb))
    refine .inr ⟨l, rest, rfl, List.splitOn_append_cons_self_of_not_mem hl rest, ?_, ?_⟩
    · rw [List.takeWhile_append_of_pos hall]
      simp
    · unfold afterLine
      rw [List.dropWhile_append_of_pos hall]
      simp
  · have hall : ∀ b ∈ bytes, decide (b ≠ chLf) = true := by
      intro b hb
      exact decide_eq_true (fun h => hin (h ▸ hb))
    refine .inl ⟨List.splitOn_eq_singleton hin, List.takeWhile_eq_self_iff.mpr hall, ?_⟩
    unfold afterLine
    rw [List.dropWhile_eq_nil_iff.mpr hall, List.drop_nil]

theorem lineText_of_short {bytes : List Byte}
    (hshort : ((bytes.takeWhile (· ≠ chLf)).filter (· ≠ chCr)).length ≤ 63) (hnul : 0 ∉ bytes) :
    lineText bytes = textLine (bytes.takeWhile (· ≠ chLf)) := by
  unfold lineText textLine rawLine
  rw [List.take_of_length_le (Nat.le_trans hshort (by decide))]
  refine List.takeWhile_eq_self_iff.mpr (fun b hb => decide_eq_true (fun h => hnul ?_))
  have hmem : b ∈ (bytes.takeWhile (· ≠ chLf)).filter (· ≠ chCr) := by
    have hprefix := (List.rdropWhile_prefix isSpace _).subset hb
    exact (List.dropWhile_suffix isSpace).subset hprefix
  rw [h] at hmem
  exact (List.takeWhile_prefix _).subset (List.mem_filter.mp hmem).1

theorem commandLines_text (k : Nat) {bytes : List Byte} (hk : bytes.length ≤ k)
    (hshort : ∀ l ∈ bytes.splitOn chLf, (l.filter (· ≠ chCr)).length ≤ 63) (hnul : 0 ∉ bytes) :
    (commandLines k bytes).map Prod.fst =
      ((bytes.splitOn chLf).map textLine).filter isCommand := by
  induction k generalizing bytes with
  | zero =>
    rw [List.length_eq_zero_iff.mp (Nat.le_zero.mp hk)]
    rfl
  | succ k ih =>
    by_cases hnil : bytes = []
    · subst hnil
      rfl
    have hlt := afterLine_length hnil
    rw [commandLines_succ hnil]
    rcases splitOn_cases bytes with ⟨hsplit, hline, hafter⟩ | ⟨l, rest, rfl, hsplit, hline, hafter⟩
    · rw [hsplit] at hshort ⊢
      have htext : lineText bytes = textLine bytes := by
        have := @lineText_of_short bytes
          (by rw [hline]; exact hshort bytes List.mem_cons_self) hnul
        rwa [hline] at this
      have hend : commandLines k [] = [] := by cases k <;> rfl
      rw [htext, hafter, hend, List.map_singleton, List.filter_singleton]
      split <;> simp_all
    · rw [hsplit] at hshort ⊢
      have htext : lineText (l ++ chLf :: rest) = textLine l := by
        have := @lineText_of_short (l ++ chLf :: rest)
          (by rw [hline]; exact hshort l List.mem_cons_self) hnul
        rwa [hline] at this
      have hrest := @ih rest (by rw [hafter] at hlt; omega)
        (fun l hl => hshort l (List.mem_cons_of_mem _ hl)) (fun h => hnul (by simp [h]))
      rw [htext, hafter, List.map_cons, List.filter_cons]
      split
      · rw [List.map_cons, hrest]
      · exact hrest

theorem commands_text {c : List Byte} (h : IsText c) :
    (commands c).map Prod.fst = scriptLines c :=
  commandLines_text c.length (Nat.le_refl _) h.short h.noNul

/-! ## Depth -/

def lineScript (cmd : CStr) : Option CStr :=
  let cmd := trimCommand cmd
  if cmd = [] ∨ strToLower (commandOf cmd) = [] ∨ argsOf cmd ≠ [] then none
  else autFilename (strToLower (commandOf cmd))

section Runs

variable {σ : Type} (r : Rest σ)

/-- The scripts that are found by a line have a smaller rank than the script that it is from. -/
def NonRecursive (rank : CStr → Nat) : Prop :=
  ∀ st f, ∀ l ∈ commands ((r.readFile st f).2.take scriptMax), ∀ g, lineScript l.1 = some g →
    ∀ st', (r.readFile st' g).2.take scriptMax ≠ [] → rank g < rank f

variable {r}

theorem findScript_lineScript {cmd : CStr} (hcmd : trimCommand cmd ≠ []) {st : σ}
    (h : (findScript r st (strToLower (commandOf (trimCommand cmd)))
      (argsOf (trimCommand cmd))).2 ≠ []) :
    ∃ g, lineScript cmd = some g ∧
      findScript r st (strToLower (commandOf (trimCommand cmd))) (argsOf (trimCommand cmd)) =
        ((r.readFile st g).1, (r.readFile st g).2.take scriptMax) := by
  unfold findScript at h ⊢
  unfold lineScript
  split at h
  · exact absurd rfl h
  rename_i hok
  rw [if_neg hok, if_neg (by simp only [hcmd, false_or]; exact hok)]
  cases hname : autFilename (strToLower (commandOf (trimCommand cmd))) with
  | none =>
    rw [hname] at h
    exact absurd rfl h
  | some g => exact ⟨g, rfl, rfl⟩

theorem straightLines_ends {exec : σ → CStr → Option σ} {ls : List (CStr × List Byte)}
    (h : ∀ l ∈ ls, ∀ st, (exec st l.1).isSome) (st : σ) : (straightLines exec ls st).isSome := by
  induction ls generalizing st with
  | nil => rfl
  | cons l ls ih =>
    obtain ⟨st₁, hst₁⟩ := Option.isSome_iff_exists.mp (h l List.mem_cons_self st)
    unfold straightLines
    rw [hst₁]
    exact ih (fun l' hl => h l' (List.mem_cons_of_mem l hl)) st₁

/-- A line whose script has a rank below `n` comes back, by induction on `n`. -/
theorem straight_ends {rank : CStr → Nat} (hr : NonRecursive r rank) (n : Nat) {cmd : CStr}
    (h : ∀ g, lineScript cmd = some g → ∀ st', (r.readFile st' g).2.take scriptMax ≠ [] → rank g < n)
    (st : σ) : (straight r (n + 1) st cmd).isSome := by
  induction n generalizing cmd st with
  | zero =>
    unfold straight
    dsimp only
    split
    · rfl
    rename_i hdone
    rw [not_or] at hdone
    by_cases hnil : (findScript r (r.other st (trimCommand cmd)).1
        (strToLower (commandOf (trimCommand cmd))) (argsOf (trimCommand cmd))).2 = []
    · rw [hnil]
      rfl
    · obtain ⟨g, hg, hfound⟩ := findScript_lineScript hdone.2 hnil
      rw [hfound] at hnil
      exact absurd (h g hg _ hnil) (Nat.not_lt_zero _)
  | succ n ih =>
    unfold straight
    dsimp only
    split
    · rfl
    rename_i hdone
    rw [not_or] at hdone
    by_cases hnil : (findScript r (r.other st (trimCommand cmd)).1
        (strToLower (commandOf (trimCommand cmd))) (argsOf (trimCommand cmd))).2 = []
    · rw [hnil]
      rfl
    · obtain ⟨g, hg, hfound⟩ := findScript_lineScript hdone.2 hnil
      rw [hfound] at hnil ⊢
      have hrank := h g hg _ hnil
      refine straightLines_ends (fun l hl st₁ => ih (fun g' hg' st' hne => ?_) st₁) _
      have := hr _ g l hl g' hg' st' hne
      omega

/-! ## Runs -/

/-- A script of text, none of whose lines reads a script over what it has not read itself, has
exactly its lines executed. -/
theorem aut_runs_its_lines (r : Rest σ) (rank : CStr → Nat) (hr : NonRecursive r rank) (s : Shell σ)
    (command f c : CStr) (st : σ) (hcommand : command ≠ []) (hname : autFilename command = some f)
    (hread : r.readFile s.rest f = (st, c)) (hsize : c.length ≤ scriptMax) (htext : IsText c)
    (n : Nat) (hn : rank f < n)
    (hspared : sparedLines (straight r n) (Spared r n) [] c (commands c) st) :
    ∃ s' lines, tryExecuteAut r (shellExecute r n) s command [] = some (s', lines) ∧
      lines.getD [] = scriptLines c := by
  have hfile : (r.readFile s.rest f).2.take scriptMax = c := by
    rw [hread, List.take_of_length_le hsize]
  have hfound : findScript r s.rest command [] = (st, c) := by
    unfold findScript
    rw [if_neg (by simp [hcommand]), hname]
    dsimp only
    rw [hfile, hread]
  unfold tryExecuteAut
  rw [hfound]
  dsimp only
  by_cases hnil : c = []
  · subst hnil
    exact ⟨_, _, rfl, rfl⟩
  obtain ⟨m, rfl⟩ : ∃ m, n = m + 1 := ⟨n - 1, by omega⟩
  have hends : (straightLines (straight r (m + 1)) (commands c) st).isSome := by
    refine straightLines_ends (fun l hl st₁ => straight_ends hr m (fun g hg st' hne => ?_) st₁) st
    have := hr s.rest f l (by rw [hfile]; exact hl) g hg st' hne
    omega
  obtain ⟨st', hrun⟩ := Option.isSome_iff_exists.mp hends
  obtain ⟨s', hloop, _, _⟩ := script_straight (shellExecute_straight (m + 1))
    (b := s.buffer) (List.forall_mem_nil _) (List.forall_mem_nil _) hrun hspared
  rw [if_neg hnil, hloop]
  exact ⟨s', some _, rfl, commands_text htext⟩

end Runs

/-! ## Two scripts -/

def nameA : CStr := [0x41, 0x2E, 0x41, 0x55, 0x54]
def nameB : CStr := [0x42, 0x2E, 0x41, 0x55, 0x54]

/-- The lines `b` and `c`. -/
def scriptA : List Byte := [0x62, 0x0A, 0x63, 0x0A]

/-- `A.AUT` is `scriptA`, `B.AUT` is given, and no other line does anything. -/
def twoScripts (b : List Byte) : Rest Unit where
  other := fun st _ => (st, false)
  readFile := fun st f => (st, if f = nameA then scriptA else if f = nameB then b else [])

def rankAB (f : CStr) : Nat := if f = nameA then 1 else 0

theorem twoScripts_nonRecursive {b : List Byte}
    (h : ∀ l ∈ commands (b.take scriptMax), lineScript l.1 ≠ some nameA ∧ lineScript l.1 ≠ some nameB) :
    NonRecursive (twoScripts b) rankAB := by
  intro _ f l hl g hg _ hne
  have hfound : g = nameA ∨ g = nameB := by
    by_contra hno
    rw [not_or] at hno
    exact hne (by simp [twoScripts, hno.1, hno.2])
  by_cases hf : f = nameA
  · have hA : ∀ l ∈ commands scriptA, lineScript l.1 ≠ some nameA := by decide +kernel
    have hl' : l ∈ commands scriptA := by
      rw [hf] at hl
      exact hl
    have hgA : g ≠ nameA := fun h => hA l hl' (by rw [hg, h])
    unfold rankAB
    rw [if_neg hgA, if_pos hf]
    exact Nat.one_pos
  · by_cases hf' : f = nameB
    · have hl' : l ∈ commands (b.take scriptMax) := by
        have hne : nameB ≠ nameA := by decide
        simpa [twoScripts, hf', hne] using hl
      obtain ⟨hA, hB⟩ := h l hl'
      rcases hfound with rfl | rfl
      · exact absurd hg hA
      · exact absurd hg hB
    · have hempty : commands ((((twoScripts b).readFile () f).2).take scriptMax) = [] := by
        simp [twoScripts, hf, hf']
        rfl
      rw [hempty] at hl
      cases hl

theorem scriptA_isText : IsText scriptA := ⟨by decide +kernel, by decide⟩

/-- A script of one byte leaves the second line of `A.AUT` alone. -/
theorem aut_runs_its_lines_short :
    ∃ s' lines, tryExecuteAut (twoScripts [0x78]) (shellExecute (twoScripts [0x78]) 2)
        ⟨fun _ => 0, ()⟩ [0x61] [] = some (s', lines) ∧ lines.getD [] = scriptLines scriptA := by
  refine aut_runs_its_lines (twoScripts [0x78]) rankAB (twoScripts_nonRecursive (by decide +kernel))
    ⟨fun _ => 0, ()⟩ [0x61] nameA scriptA () (by decide) (by decide +kernel) (by decide +kernel)
    (by decide) scriptA_isText 2 (by decide) ?_
  have hcommands : commands scriptA = [([0x62], [0x63, 0x0A]), ([0x63], [])] := by decide +kernel
  have hcommands' : commands [0x78] = [([0x78], [])] := by decide +kernel
  have hspared : (⟨scriptA, [0x63, 0x0A]⟩ : Waiting).Spared [0x78] := by
    intro j hlow _
    have hlow' : 2 ≤ j := hlow
    have hone : ([0x78] : List Byte).length = 1 := rfl
    exact ⟨fun h => by omega, fun h => by omega⟩
  rw [hcommands]
  refine ⟨.inr (.inr (.inr ⟨?_, ?_⟩)), fun st _ => ⟨.inr (.inr (.inl ?_)), fun _ _ => trivial⟩⟩
  · intro w hw
    rw [List.mem_singleton.mp hw]
    exact hspared
  · show sparedLines _ _ _ _ (commands [0x78]) _
    rw [hcommands']
    exact ⟨.inr (.inr (.inl (by decide +kernel))), fun _ _ => trivial⟩
  · cases st
    decide +kernel

/-- A script of four bytes is read over the second line of `A.AUT`. -/
theorem aut_reads_over_itself :
    ¬ ∀ (r : Rest Unit) (rank : CStr → Nat), NonRecursive r rank →
      ∀ (s : Shell Unit) (command f c : CStr) (st : Unit), command ≠ [] →
      autFilename command = some f → r.readFile s.rest f = (st, c) → c.length ≤ scriptMax →
      IsText c → ∀ n, rank f < n →
      ∃ s' lines, tryExecuteAut r (shellExecute r n) s command [] = some (s', lines) ∧
        lines.getD [] = scriptLines c := by
  intro h
  obtain ⟨s', lines, hrun, hlines⟩ := h (twoScripts [0x78, 0x79, 0x7A, 0x77]) rankAB
    (twoScripts_nonRecursive (by decide +kernel)) ⟨fun _ => 0, ()⟩ [0x61] nameA scriptA () (by decide)
    (by decide +kernel) (by decide +kernel) (by decide) scriptA_isText 2 (by decide)
  have hwrong : (tryExecuteAut (twoScripts [0x78, 0x79, 0x7A, 0x77])
      (shellExecute (twoScripts [0x78, 0x79, 0x7A, 0x77]) 2) ⟨fun _ => 0, ()⟩ [0x61] []).map Prod.snd =
      some (some [[0x62], [0x7A, 0x77]]) := by
    decide +kernel
  rw [hrun] at hwrong
  cases hwrong
  exact absurd hlines (by decide +kernel)

end Script
end MiniDos
