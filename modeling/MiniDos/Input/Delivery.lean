import MiniDos.Input.Ports

/-!
# MiniDos.Input.Delivery

What becomes of the bytes of the controller and of the characters, over whole runs.

* `InOrder`: the invariant. The keyboard decoder ran on the bytes that the keyboard code took, the
  mouse decoder on those of the mouse, and the characters that were kept are those that were
  delivered and those that wait.
* `Lossless`: the same with every byte and every character.
-/

namespace MiniDos
namespace Input

/-- The bytes that the keyboard code took. -/
def keyInput (taken : List Taken) : List UInt8 :=
  (taken.filter (fun t => t.reader ≠ .irq12)).map Taken.byte

def keyBytes (taken : List Taken) : List UInt8 := (taken.filter (fun t => !t.aux)).map Taken.byte

def mouseBytes (taken : List Taken) : List UInt8 := (taken.filter Taken.aux).map Taken.byte

/-- `pending`: characters that a polling read has on its way to a reader. -/
structure InOrder (width height : Int) (set2 : Bool) (mouse : Mouse) (pending : List UInt8)
    (s : Machine) : Prop where
  codes : s.keyboard.set2 = set2
  fromKeyboard : ∀ t ∈ s.taken, t.reader ≠ .irq12 → t.aux = false
  keys : s.keyboard.keys = (processAll set2 Keys.init (keyInput s.taken)).1
  chars : s.history.map Decoded.char = (processAll set2 Keys.init (keyInput s.taken)).2
  mouse : s.mouse = (mouseBytes s.taken).foldl (Mouse.byte width height) mouse
  order : (s.history.filter Decoded.kept).map Decoded.char =
    s.delivered ++ s.keyboard.ring.contents ++ pending
  dropped : ∀ e ∈ s.history, e.kept = false → e.queued = 127 ∨ e.repeated = true

/-! ## Records -/

theorem processAll_snoc (set2 : Bool) (k : Keys) (bytes : List UInt8) (b : UInt8) :
    processAll set2 k (bytes ++ [b]) =
      ((processScancode set2 (processAll set2 k bytes).1 b).1,
        (processAll set2 k bytes).2 ++ emit (processScancode set2 (processAll set2 k bytes).1 b).2) := by
  rw [processAll_append]
  simp [processAll]

theorem record_chars (history : List Decoded) (c : UInt8) (queued : Nat) (repeated kept : Bool) :
    (record history c queued repeated kept).map Decoded.char =
      history.map Decoded.char ++ emit c := by
  unfold record emit
  split <;> simp

theorem record_kept (history : List Decoded) (c : UInt8) (queued : Nat) (repeated kept : Bool) :
    ((record history c queued repeated kept).filter Decoded.kept).map Decoded.char =
      (history.filter Decoded.kept).map Decoded.char ++ if kept then emit c else [] := by
  unfold record emit
  cases kept <;> split <;> simp

theorem mem_record {history : List Decoded} {c : UInt8} {queued : Nat} {repeated kept : Bool}
    {e : Decoded} (h : e ∈ record history c queued repeated kept) :
    e ∈ history ∨ e = ⟨c, queued, repeated, kept⟩ := by
  unfold record at h
  split at h
  · exact .inl h
  · simpa using h

theorem scan_spec (k : Keyboard) (t : Timer) (b : UInt8) :
    (k.scan t b).1.set2 = k.set2 ∧ (k.scan t b).1.ring = k.ring ∧
      (k.scan t b).1.keys = (processScancode k.set2 k.keys b).1 ∧
      (k.scan t b).2.1 = (processScancode k.set2 k.keys b).2 := by
  unfold Keyboard.scan
  dsimp only
  split <;> exact ⟨rfl, rfl, rfl, rfl⟩

/-! ## Steps -/

variable {width height : Int} {set2 : Bool} {mouse : Mouse} {s : Machine} {pending : List UInt8}

theorem keyInput_snoc (taken : List Taken) {t : Taken} (h : t.reader ≠ .irq12) :
    keyInput (taken ++ [t]) = keyInput taken ++ [t.byte] := by
  simp [keyInput, h]

theorem mouseBytes_snoc (taken : List Taken) {t : Taken} (h : t.aux = false) :
    mouseBytes (taken ++ [t]) = mouseBytes taken := by
  simp [mouseBytes, h]

/-- The keyboard code takes a byte. -/
theorem InOrder.takeKey (h : InOrder width height set2 mouse [] s) {reader : Reader}
    (hr : reader ≠ .irq12) (b : UInt8) {queued : Nat} {kept : Bool} {s' : Machine}
    (hset : s'.keyboard.set2 = s.keyboard.set2)
    (hkeys : s'.keyboard.keys = (s.keyboard.scan s.timer b).1.keys)
    (htaken : s'.taken = s.taken ++ [⟨reader, false, b⟩])
    (hhistory : s'.history = record s.history (s.keyboard.scan s.timer b).2.1 queued
      (s.keyboard.scan s.timer b).2.2 kept)
    (hmouse : s'.mouse = s.mouse)
    (horder : s'.delivered ++ s'.keyboard.ring.contents ++ pending =
      s.delivered ++ s.keyboard.ring.contents ++
        if kept then emit (s.keyboard.scan s.timer b).2.1 else [])
    (hdropped : kept = false → queued = 127 ∨ (s.keyboard.scan s.timer b).2.2 = true) :
    InOrder width height set2 mouse pending s' := by
  obtain ⟨_, _, hscanKeys, hscanChar⟩ := scan_spec s.keyboard s.timer b
  rw [h.codes, h.keys] at hscanKeys hscanChar
  refine ⟨hset.trans h.codes, ?_, ?_, ?_, ?_, ?_, ?_⟩
  · rw [htaken]
    intro t ht hne
    rcases List.mem_append.mp ht with ht | ht
    · exact h.fromKeyboard t ht hne
    · rw [List.mem_singleton.mp ht]
  · rw [hkeys, hscanKeys, htaken, keyInput_snoc _ hr, processAll_snoc]
  · rw [hhistory, record_chars, h.chars, hscanChar, htaken, keyInput_snoc _ hr, processAll_snoc]
  · rw [hmouse, h.mouse, htaken, mouseBytes_snoc _ rfl]
  · rw [hhistory, record_kept, h.order, horder, List.append_nil]
  · rw [hhistory]
    intro e he hk
    rcases mem_record he with he | rfl
    · exact h.dropped e he hk
    · exact hdropped hk

theorem InOrder.irq1 (h : InOrder width height set2 mouse [] s) :
    InOrder width height set2 mouse [] s.keyboardHandleIrq := by
  unfold Machine.keyboardHandleIrq
  split
  · rename_i b port _
    obtain ⟨hset, hring, _, _⟩ := scan_spec s.keyboard s.timer b
    refine h.takeKey (by decide : Reader.irq1 ≠ .irq12) b ?_ ?_ rfl rfl rfl ?_ ?_
    · dsimp only
      split <;> exact hset
    · dsimp only
      split <;> rfl
    · have hnoted : ((s.keyboard.scan s.timer b).1.noteIrq s.timer).ring = s.keyboard.ring := hring
      dsimp only
      unfold emit
      rw [List.append_nil]
      by_cases hc : (s.keyboard.scan s.timer b).2.1 = 0
      · rw [if_neg (fun hand => hand.1 hc), hnoted, if_pos hc]
        simp
      · cases hdup : (s.keyboard.scan s.timer b).2.2 with
        | true =>
          rw [if_neg (by simp), hnoted]
          simp
        | false =>
          rw [if_pos ⟨hc, rfl⟩, if_neg hc]
          show s.delivered ++ (((s.keyboard.scan s.timer b).1.noteIrq s.timer).ring.push _).contents = _
          rw [hnoted]
          by_cases hfull : s.keyboard.ring.Full
          · rw [Ring.push_of_full _ hfull]
            simp [hfull]
          · rw [Ring.contents_push _ hfull]
            simp [hfull]
    · intro hkept
      cases hdup : (s.keyboard.scan s.timer b).2.2 with
      | true => exact .inr rfl
      | false =>
        refine .inl ?_
        rw [hdup] at hkept
        have hfull : s.keyboard.ring.Full := by simpa using hkept
        unfold Ring.Full at hfull
        omega
  · exact h

theorem InOrder.irq12 (h : InOrder width height set2 mouse [] s) :
    InOrder width height set2 mouse [] (s.mouseHandleIrq width height) := by
  unfold Machine.mouseHandleIrq
  split
  · rename_i aux b port _
    have hkey : keyInput (s.taken ++ [⟨.irq12, aux, b⟩]) = keyInput s.taken := by simp [keyInput]
    refine ⟨h.codes, ?_, ?_, ?_, ?_, h.order, h.dropped⟩
    · intro t ht hne
      rcases List.mem_append.mp ht with ht | ht
      · exact h.fromKeyboard t ht hne
      · rw [List.mem_singleton.mp ht] at hne
        exact absurd rfl hne
    · dsimp only
      rw [hkey]
      exact h.keys
    · dsimp only
      rw [hkey]
      exact h.chars
    · cases aux with
      | false =>
        show s.mouse = _
        rw [h.mouse, mouseBytes_snoc _ rfl]
      | true =>
        show s.mouse.byte width height b = _
        rw [h.mouse]
        simp [mouseBytes]
  · exact h

theorem InOrder.poll (h : InOrder width height set2 mouse [] s) :
    InOrder width height set2 mouse s.keyboardPollOneChar.2.toList s.keyboardPollOneChar.1 := by
  unfold Machine.keyboardPollOneChar
  split
  · split
    · rename_i b port _
      obtain ⟨hset, hring, _, _⟩ := scan_spec s.keyboard s.timer b
      refine h.takeKey (by decide : Reader.poll ≠ .irq12) b hset rfl rfl rfl rfl ?_ ?_
      · dsimp only
        rw [hring]
        unfold emit
        by_cases hc : (s.keyboard.scan s.timer b).2.1 = 0
        · simp [hc]
        · cases hdup : (s.keyboard.scan s.timer b).2.2 <;> simp [hc]
      · intro hkept
        exact .inr (by simpa using hkept)
    · exact h
  · exact h

theorem poll_frame (s : Machine) :
    s.keyboardPollOneChar.1.keyboard.ring = s.keyboard.ring ∧
      s.keyboardPollOneChar.1.delivered = s.delivered := by
  unfold Machine.keyboardPollOneChar
  split
  · split
    · rename_i b port _
      exact ⟨(scan_spec s.keyboard s.timer b).2.1, rfl⟩
    · exact ⟨rfl, rfl⟩
  · exact ⟨rfl, rfl⟩

theorem InOrder.frame {s' : Machine} {pending' : List UInt8}
    (h : InOrder width height set2 mouse pending s) (hset : s'.keyboard.set2 = s.keyboard.set2)
    (hkeys : s'.keyboard.keys = s.keyboard.keys) (htaken : s'.taken = s.taken)
    (hhistory : s'.history = s.history) (hmouse : s'.mouse = s.mouse)
    (horder : s'.delivered ++ s'.keyboard.ring.contents ++ pending' =
      s.delivered ++ s.keyboard.ring.contents ++ pending) :
    InOrder width height set2 mouse pending' s' := by
  refine ⟨hset.trans h.codes, ?_, ?_, ?_, ?_, ?_, ?_⟩
  · rw [htaken]
    exact h.fromKeyboard
  · rw [htaken, hkeys]
    exact h.keys
  · rw [htaken, hhistory]
    exact h.chars
  · rw [htaken, hmouse]
    exact h.mouse
  · rw [hhistory, horder]
    exact h.order
  · rw [hhistory]
    exact h.dropped

theorem InOrder.tryGetChar (h : InOrder width height set2 mouse [] s) :
    InOrder width height set2 mouse [] s.keyboardTryGetChar := by
  unfold Machine.keyboardTryGetChar
  cases hpop : s.keyboard.ring.pop with
  | some r =>
    obtain ⟨c, ring⟩ := r
    refine h.frame rfl rfl rfl rfl rfl ?_
    dsimp only
    rw [Ring.contents_pop _ hpop]
    simp
  | none =>
    obtain ⟨hring, hdelivered⟩ := poll_frame s
    refine h.poll.frame rfl rfl rfl rfl rfl ?_
    dsimp only
    rw [hring, hdelivered, Ring.contents_of_pop_none _ hpop]
    simp

theorem InOrder.hasInput (h : InOrder width height set2 mouse [] s) :
    InOrder width height set2 mouse [] s.keyboardHasInput := by
  unfold Machine.keyboardHasInput
  split
  · exact h
  rename_i hempty
  rw [not_not] at hempty
  obtain ⟨hring, hdelivered⟩ := poll_frame s
  have hpoll := h.poll
  dsimp only
  split
  · rename_i c hc
    rw [hc] at hpoll
    refine hpoll.frame rfl rfl rfl rfl rfl ?_
    have hnil : s.keyboard.ring.contents = [] := s.keyboard.ring.contents_eq_nil_iff.mpr hempty
    have hroom : ¬ s.keyboard.ring.Full := by
      have hcount := s.keyboard.ring.contents_length
      rw [hnil, List.length_nil] at hcount
      unfold Ring.Full
      omega
    show _ ++ ((s.keyboardPollOneChar.1.keyboard.ring).push c).contents ++ [] = _
    rw [hring, Ring.contents_push _ hroom, hnil]
    simp
  · rename_i hc
    rw [hc] at hpoll
    exact hpoll

theorem InOrder.step (h : InOrder width height set2 mouse [] s) (e : Step) :
    InOrder width height set2 mouse [] (step width height s e) := by
  cases e with
  | keyByte b => exact h.frame rfl rfl rfl rfl rfl rfl
  | mouseByte b => exact h.frame rfl rfl rfl rfl rfl rfl
  | timerReady => exact h.frame rfl rfl rfl rfl rfl rfl
  | tick => exact h.frame rfl rfl rfl rfl rfl rfl
  | setIrqMode enabled => exact h.frame rfl rfl rfl rfl rfl rfl
  | irq1 => exact h.irq1
  | irq12 => exact h.irq12
  | tryGetChar => exact h.tryGetChar
  | hasInput => exact h.hasInput

/-! ## Runs -/

theorem boot_inOrder (width height : Int) (set2 : Bool) (timer : Timer) (mouse : Mouse) :
    InOrder width height set2 mouse [] (boot set2 timer mouse) := by
  have hempty : (Keyboard.init set2).ring.contents = [] := (Ring.contents_eq_nil_iff _).mpr rfl
  refine ⟨rfl, ?_, rfl, rfl, rfl, ?_, ?_⟩
  · intro t ht
    cases ht
  · show [] = [] ++ (Keyboard.init set2).ring.contents ++ []
    rw [hempty]
    rfl
  · intro e he
    cases he

/-- After any steps: the keyboard code took bytes of the keyboard only and decoded them all, all
bytes of the mouse went through its decoder, and the characters were delivered in order, but for
those that were dropped because the ring was full or because they were duplicates. -/
theorem input_in_order (width height : Int) (set2 : Bool) (timer : Timer) (mouse : Mouse)
    (steps : List Step) :
    InOrder width height set2 mouse [] (run width height set2 timer mouse steps) :=
  List.foldlRecOn steps (step width height) (boot_inOrder width height set2 timer mouse) (fun _ h e _ => h.step e)

theorem run_mouse (width height : Int) (set2 : Bool) (timer : Timer) (mouse : Mouse) (steps : List Step) :
    (run width height set2 timer mouse steps).mouse =
      (mouseBytes (run width height set2 timer mouse steps).taken).foldl (Mouse.byte width height) mouse :=
  InOrder.mouse (List.foldlRecOn steps (step width height) (boot_inOrder width height set2 timer mouse)
    (fun _ h e _ => h.step e))

/-- No byte and no character is lost, but for characters that come while the ring is full. -/
structure Lossless (width height : Int) (set2 : Bool) (mouse : Mouse) (s : Machine) : Prop where
  keys : s.keyboard.keys = (processAll set2 Keys.init (keyBytes s.taken)).1
  chars : s.history.map Decoded.char = (processAll set2 Keys.init (keyBytes s.taken)).2
  mouse : s.mouse = (mouseBytes s.taken).foldl (Mouse.byte width height) mouse
  order : (s.history.filter Decoded.kept).map Decoded.char =
    s.delivered ++ s.keyboard.ring.contents
  dropped : ∀ e ∈ s.history, e.kept = false → e.queued = 127

/-- The same key twice within two ticks: the second character is dropped. -/
theorem duplicate_is_dropped :
    ¬ ∀ steps, Lossless 640 480 false ⟨0, 0, 0, 0, 0, 0, true, []⟩
      (run 640 480 false ⟨true, 5⟩ ⟨0, 0, 0, 0, 0, 0, true, []⟩ steps) := by
  intro h
  have hdropped := (h [.keyByte 0x1E, .irq1, .keyByte 0x1E, .irq1]).dropped
  have hlast : (⟨0x61, 1, true, false⟩ : Decoded) ∈
      (run 640 480 false ⟨true, 5⟩ ⟨0, 0, 0, 0, 0, 0, true, []⟩
        [.keyByte 0x1E, .irq1, .keyByte 0x1E, .irq1]).history := by
    show _ ∈ [(⟨0x61, 0, false, true⟩ : Decoded), ⟨0x61, 1, true, false⟩]
    exact List.mem_cons_of_mem _ List.mem_cons_self
  exact absurd (hdropped _ hlast rfl) (by decide)

end Input
end MiniDos
