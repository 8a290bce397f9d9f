import MiniDos.User.Calls
import MiniDos.User.Bounds

/-!
# MiniDos.User.Graphics

The graphics calls that check before they draw: rectangle batches, surfaces and clipped text.

* `Unless`: what a call leaves as it was when it returns 0; one lemma for each call.
* `rectCalls`: the rectangles of a batch by a call each. `batch_draws_rects`: they draw the same.
* `gfxCalls_exact`: the two together, for the system calls.
-/

namespace MiniDos
namespace User

open BlockIO Fat16 Files Plane
open Video (Screen Blit Font Alike)

variable {fails : Nat → Bool} {fuel : Nat} {font : Font} {dev : Devices} {caller : Caller} {task : Task}

/-! ## Refusals -/

/-- A call that returns 0 leaves the machine `m` as it was. -/
def Unless (m : Machine) (r : Int) (m' : Machine) : Prop := r = 0 → m' = m

variable {m : Machine}

theorem unless_pure (r : Int) : (pure r : UserProg Int).wp (Unless m) m := fun _ => rfl

theorem given_unless {α : Type} {p : UserProg (Option α)} {k : Option α → UserProg Int}
    (hp : ∀ {Q : Option α → Machine → Prop}, (∀ r, Q r m) → p.wp Q m)
    (hnone : (k none).wp (Unless m) m) (hsome : ∀ a, (k (some a)).wp (Unless m) m) :
    (p >>= k).wp (Unless m) m := by
  refine (Touch.wp_bind _ _ _ m).mpr (hp (fun given => ?_))
  cases given with
  | none => exact hnone
  | some a => exact hsome a

theorem copyUserBytes_wp {input size : UInt32} {Q : Option (List Byte) → Machine → Prop}
    (h : ∀ bytes, Q bytes m) : (copyUserBytes task input size).wp Q m := by
  refine Touch.wp_ite (fun _ => h _) (fun _ => Touch.wp_ite (fun _ => h _) (fun _ => ?_))
  exact (Touch.wp_bind _ _ Q m).mpr (Touch.wp_readCells (fun bytes => h (some bytes)))

theorem readUserString_wp (limit n addr : Nat) {Q : Option CStr → Machine → Prop}
    (h : ∀ s, Q s m) : (readUserString limit n addr).wp Q m := by
  induction n generalizing addr Q with
  | zero => exact h none
  | succ n ih =>
    refine Touch.wp_ite (fun _ => h none) (fun _ => (Touch.wp_bind _ _ Q m).mpr (fun c => ?_))
    refine Touch.wp_ite (fun _ => h _) (fun _ => (Touch.wp_bind _ _ Q m).mpr (ih _ (fun rest => ?_)))
    exact h _

theorem copyUserString_wp {input : UInt32} {outSize : Nat} {Q : Option CStr → Machine → Prop}
    (h : ∀ s, Q s m) : (copyUserString task input outSize).wp Q m := by
  refine Touch.wp_ite (fun _ => h none) (fun _ => Touch.wp_ite (fun _ => h none) (fun _ => ?_))
  exact Touch.wp_ite (fun _ => h none) (fun _ => readUserString_wp _ _ _ h)

theorem copyRects_wp (n : Nat) (userRect : UInt32) {Q : Option (List Screen.ColorRect) → Machine → Prop}
    (h : ∀ rects, Q rects m) : (copyRects task n userRect).wp Q m := by
  induction n generalizing userRect Q with
  | zero => exact h (some [])
  | succ n ih =>
    refine (Touch.wp_bind _ _ Q m).mpr (copyUserBytes_wp (fun bytes => ?_))
    cases bytes with
    | none => exact h none
    | some bytes =>
      refine Touch.wp_ite (fun _ => h none) (fun _ => ?_)
      exact (Touch.wp_bind _ _ Q m).mpr (ih _ (fun rects => h _))

theorem onScreen_unless {f : Screen → Int × Screen} (h : (f m.2).1 = 0 → (f m.2).2 = m.2) :
    (onScreen f).wp (Unless m) m := by
  refine Touch.wp_lift _ (fun r m' hrun hr => ?_)
  cases hrun
  exact Prod.ext rfl (h hr)

theorem flag_eq_zero {ok : Bool} : flag ok = 0 ↔ ok = false := by
  cases ok <;> decide

theorem gfxRectBatch_unless (a0 : UInt32) : (gfxRectBatch caller task a0).wp (Unless m) m := by
  refine Touch.wp_ite (fun _ => unless_pure 0) (fun _ => ?_)
  refine given_unless copyUserBytes_wp (unless_pure 0) (fun bytes => ?_)
  refine Touch.wp_ite (fun _ => unless_pure 0) (fun _ =>
    Touch.wp_ite (fun _ => unless_pure 0) (fun _ => ?_))
  refine given_unless (copyRects_wp _ _) (unless_pure 0) (fun rects => ?_)
  refine onScreen_unless (fun hr => ?_)
  rw [flag_eq_zero] at hr
  dsimp only at hr ⊢
  unfold Screen.videoFillRectBatch at hr ⊢
  split
  · rfl
  · rename_i hok
    rw [if_neg hok] at hr
    cases hr

theorem gfxTextClipped_unless (a0 : UInt32) :
    (gfxTextClipped font caller task a0).wp (Unless m) m := by
  refine Touch.wp_ite (fun _ => unless_pure 0) (fun _ => ?_)
  refine given_unless copyUserBytes_wp (unless_pure 0) (fun bytes => ?_)
  refine Touch.wp_ite (fun _ => unless_pure 0) (fun _ => ?_)
  refine given_unless copyUserString_wp (unless_pure 0) (fun rendered => ?_)
  refine Touch.wp_ite (fun _ => unless_pure 0) (fun _ => onScreen_unless (fun hr => ?_))
  rw [flag_eq_zero] at hr
  dsimp only at hr ⊢
  unfold Video.videoDrawTextClipped Video.videoDrawTextImpl at hr ⊢
  split
  · rfl
  rename_i hflags
  rw [if_neg hflags] at hr
  split
  · rfl
  rename_i hclip
  rw [hclip] at hr
  dsimp only at hr
  split at hr <;> cases hr

theorem blitSurface_unless (b : Blit) :
    (blitSurface b).wp (fun ok m' => Unless m (flag ok) m') m := by
  have hdrawn : ∀ m', Unless m (flag true) m' := fun _ h => absurd h (by decide)
  refine Touch.wp_ite (fun _ _ => rfl) (fun _ => ?_)
  refine (Touch.wp_bind _ _ _ m).mpr (Touch.wp_any (fun s m₁ => ?_) _ m)
  cases b.window s.mode.width s.mode.height with
  | none => exact hdrawn m₁
  | some r =>
    refine (Touch.wp_bind _ _ _ m₁).mpr (Touch.wp_any (fun _ m₂ => ?_) _ m₁)
    exact (Touch.wp_bind _ _ _ m₂).mpr (Touch.wp_any (fun _ => hdrawn) _ m₂)

theorem gfxSurfaceBlit_unless (a0 : UInt32) : (gfxSurfaceBlit caller task a0).wp (Unless m) m := by
  refine Touch.wp_ite (fun _ => unless_pure 0) (fun _ => ?_)
  refine given_unless copyUserBytes_wp (unless_pure 0) (fun bytes => ?_)
  refine Touch.wp_ite (fun _ => unless_pure 0) (fun _ => ?_)
  refine Touch.wp_ite (fun _ => unless_pure 0) (fun _ => ?_)
  refine Touch.wp_ite (fun _ => unless_pure 0) (fun _ => ?_)
  exact (Touch.wp_bind _ _ _ m).mpr (blitSurface_unless _)

/-! ## Batches -/

/-- The rectangles of a batch by a call of `GFX_RECT` each. -/
def rectCalls (fails : Nat → Bool) (fuel : Nat) (font : Font) (dev : Devices) (caller : Caller) :
    Nat → UInt32 → UserProg Unit
  | 0, _ => pure ()
  | n + 1, userRect => do
    let _ ← syscall fails fuel font dev caller 8 userRect 0 0
    rectCalls fails fuel font dev caller n (userRect + gfxRectSize)

variable (mem : Nat → Byte)

/-- What `copyUserBytes` finds in a memory that nobody changes. -/
def userBytes (task : Task) (mem : Nat → Byte) (input size : UInt32) : Option (List Byte) :=
  if size = 0 then some []
  else if ¬ userRangeValid task input size then none
  else some ((List.range size.toNat).map (fun i => mem (input.toNat + i)))

theorem copyUserBytes_alone (input size : UInt32) :
    (copyUserBytes task input size).alone mem = pure (userBytes task mem input size) := by
  unfold copyUserBytes userBytes
  rw [Touch.alone_ite, Touch.alone_ite, Touch.alone_bind, Touch.alone_readCells]
  split
  · rfl
  · split <;> rfl

/-- The entries of a batch, if all of them are accepted. -/
def rectsOf (task : Task) (mem : Nat → Byte) : Nat → UInt32 → Option (List Screen.ColorRect)
  | 0, _ => some []
  | n + 1, userRect =>
    match userBytes task mem userRect gfxRectSize with
    | none => none
    | some bytes =>
      if ¬ Video.GfxRectValid (gfxRectOf bytes).rect then none
      else (rectsOf task mem n (userRect + gfxRectSize)).map (gfxRectOf bytes :: ·)

theorem copyRects_alone (n : Nat) (userRect : UInt32) :
    (copyRects task n userRect).alone mem = pure (rectsOf task mem n userRect) := by
  induction n generalizing userRect with
  | zero => rfl
  | succ n ih =>
    unfold copyRects rectsOf
    rw [Touch.alone_bind, copyUserBytes_alone, Action.ret_bind]
    cases userBytes task mem userRect gfxRectSize with
    | none => rfl
    | some bytes =>
      dsimp only
      rw [Touch.alone_ite, Touch.alone_bind, ih, Action.ret_bind]
      split <;> rfl

theorem rectsOf_valid : ∀ {n : Nat} {userRect : UInt32} {rects : List Screen.ColorRect},
    rectsOf task mem n userRect = some rects →
    rects.length = n ∧ ∀ r ∈ rects, Video.GfxRectValid r.rect := by
  intro n
  induction n with
  | zero =>
    intro userRect rects h
    cases h
    exact ⟨rfl, fun r hr => (nomatch hr)⟩
  | succ n ih =>
    intro userRect rects h
    unfold rectsOf at h
    cases hb : userBytes task mem userRect gfxRectSize with
    | none =>
      rw [hb] at h
      cases h
    | some bytes =>
      rw [hb] at h
      dsimp only at h
      split at h
      · cases h
      rename_i hvalid
      obtain ⟨rest, hrest, rfl⟩ := Option.map_eq_some_iff.mp h
      obtain ⟨hlen, hall⟩ := ih hrest
      refine ⟨by rw [List.length_cons, hlen], fun r hr => ?_⟩
      rcases List.mem_cons.mp hr with rfl | hr
      · exact not_not.mp hvalid
      · exact hall r hr

/-- The single calls draw the rectangles of the batch. -/
theorem rectCalls_alone (hcaller : caller.background = false) : ∀ {n : Nat} {userRect : UInt32}
    {rects : List Screen.ColorRect} (m : Machine), rectsOf m.1.2 mem n userRect = some rects →
    (rectCalls fails fuel font dev caller n userRect).alone mem m =
      some ((), m.1, rects.foldl (fun s r => (Video.gfxRect false s r).1) m.2) := by
  intro n
  induction n with
  | zero =>
    intro userRect rects m h
    cases h
    rfl
  | succ n ih =>
    intro userRect rects m h
    unfold rectsOf at h
    cases hb : userBytes m.1.2 mem userRect gfxRectSize with
    | none =>
      rw [hb] at h
      cases h
    | some bytes =>
      rw [hb] at h
      dsimp only at h
      split at h
      · cases h
      obtain ⟨rest, hrest, rfl⟩ := Option.map_eq_some_iff.mp h
      have hone : (syscall fails fuel font dev caller 8 userRect 0 0).alone mem m =
          some ((Video.gfxRect false m.2 (gfxRectOf bytes)).2, m.1,
            (Video.gfxRect false m.2 (gfxRectOf bytes)).1) := by
        show (gfxRect caller m.1.2 userRect).alone mem m = _
        unfold gfxRect
        rw [if_neg (by rw [hcaller]; exact Bool.false_ne_true), Touch.alone_bind,
          copyUserBytes_alone, Action.ret_bind, hb]
        rfl
      unfold rectCalls
      rw [Touch.alone_bind]
      show ((syscall fails fuel font dev caller 8 userRect 0 0).alone mem m).bind _ = _
      rw [hone]
      exact ih (m.1, (Video.gfxRect false m.2 (gfxRectOf bytes)).1) hrest

/-- A batch that is accepted: what it draws, and where its entries are. -/
theorem gfxRectBatch_alone {a0 : UInt32} {m m' : Machine}
    (h : (gfxRectBatch caller task a0).alone mem m = some (1, m')) :
    caller.background = false ∧ ∃ bytes rects,
      userBytes task mem a0 rectBatchSize = some bytes ∧
      (rectBatchOf bytes).count.toNat ≤ Video.appGfxRectBatchMax ∧
      rectsOf task mem (rectBatchOf bytes).count.toNat (rectBatchOf bytes).rects = some rects ∧
      (m.2.videoFillRectBatch rects).2 = true ∧
      m' = (m.1, (m.2.videoFillRectBatch rects).1) := by
  have hzero : ∀ {m₁ : Machine}, (pure 0 : Action Machine Int) m₁ = some (1, m') → False := by
    rintro m₁ ⟨⟩
  unfold gfxRectBatch at h
  split at h
  · exact (hzero h).elim
  rename_i hcaller
  refine ⟨Bool.not_eq_true _ ▸ hcaller, ?_⟩
  rw [Touch.alone_bind, copyUserBytes_alone, Action.ret_bind] at h
  cases hbytes : userBytes task mem a0 rectBatchSize with
  | none =>
    rw [hbytes] at h
    exact (hzero h).elim
  | some bytes =>
    rw [hbytes] at h
    dsimp only at h
    rw [Touch.alone_ite] at h
    split at h
    · exact (hzero h).elim
    rename_i hcount
    rw [Touch.alone_ite] at h
    split at h
    · exact (hzero h).elim
    rw [Touch.alone_bind, copyRects_alone, Action.ret_bind] at h
    cases hrects : rectsOf task mem (rectBatchOf bytes).count.toNat (rectBatchOf bytes).rects with
    | none =>
      rw [hrects] at h
      exact (hzero h).elim
    | some rects =>
      rw [hrects] at h
      refine ⟨bytes, rects, rfl, ?_, hrects, ?_⟩
      · simp only [not_or, UInt32.not_lt, UInt32.le_iff_toNat_le] at hcount
        exact hcount.2.2
      · have hrun : some (flag (m.2.videoFillRectBatch rects).2, m.1,
            (m.2.videoFillRectBatch rects).1) = some (1, m') := h
        simp only [Option.some.injEq, Prod.mk.injEq] at hrun
        refine ⟨?_, hrun.2.symm⟩
        by_contra hno
        rw [Bool.not_eq_true] at hno
        rw [hno] at hrun
        exact absurd hrun.1 (by decide)

theorem batch_draws_rects {md : Video.Mode} {a0 : UInt32} {m m' : Machine} (hself : Alike md m.2 m.2)
    (h : (gfxRectBatch caller m.1.2 a0).alone mem m = some (1, m')) :
    ∃ bytes m'', userBytes m.1.2 mem a0 rectBatchSize = some bytes ∧
      (rectCalls fails fuel font dev caller (rectBatchOf bytes).count.toNat
        (rectBatchOf bytes).rects).alone mem m = some ((), m'') ∧
      m''.1 = m'.1 ∧ m'.2.target = m''.2.target := by
  obtain ⟨hcaller, bytes, rects, hbytes, hcount, hrects, hok, rfl⟩ := gfxRectBatch_alone mem h
  obtain ⟨hlen, hvalid⟩ := rectsOf_valid mem hrects
  refine ⟨bytes, _, hbytes, rectCalls_alone mem hcaller m hrects, rfl, ?_⟩
  have hne : rects ≠ [] := by
    rintro rfl
    cases hok
  have hbatch : Video.gfxRectBatch false m.2 rects = ((m.2.videoFillRectBatch rects).1, 1) := by
    unfold Video.gfxRectBatch
    rw [if_neg (by simp [hne]; omega), if_pos (by simpa using hvalid), if_pos hok]
  have hok : 0 < (Video.gfxRectBatch false m.2 rects).2 := by
    rw [hbatch]
    exact Int.one_pos
  have hdraws := hself.batch hok
  rw [hbatch] at hdraws
  exact hdraws.target

/-- A call that draws surfaces, batches or clipped text leaves everything as it was when it returns
0; a batch for which it returns 1 draws what its rectangles draw one by one. -/
theorem gfxCalls_exact (fails : Nat → Bool) (fuel : Nat) (font : Font) (dev : Devices)
    (caller : Caller) (a0 a1 a2 : UInt32) (md : Video.Mode) (hgraphics : md.Graphics)
    (back front : Int → Int → UInt32) (calls : List Video.Call) :
    (∀ num : UInt32, num = 33 ∨ num = 35 ∨ num = 36 → ∀ mem m m',
      (syscall fails fuel font dev caller num a0 a1 a2).run mem m = some (0, m') → m' = m) ∧
    ∀ mem m m', m.2 = calls.foldl (Video.Call.run font) (Video.initVideo md back front) →
      (syscall fails fuel font dev caller 35 a0 a1 a2).alone mem m = some (1, m') →
      ∃ bytes m'', userBytes m.1.2 mem a0 rectBatchSize = some bytes ∧
        (rectCalls fails fuel font dev caller (rectBatchOf bytes).count.toNat
          (rectBatchOf bytes).rects).alone mem m = some ((), m'') ∧
        m''.1 = m'.1 ∧ m'.2.target = m''.2.target := by
  refine ⟨?_, fun mem m m' hscreen hrun => ?_⟩
  · intro num hnum mem m m' hrun
    have hwp : (syscall fails fuel font dev caller num a0 a1 a2).wp (Unless m) m := by
      rcases hnum with rfl | rfl | rfl
      · exact gfxSurfaceBlit_unless a0
      · exact gfxRectBatch_unless a0
      · exact gfxTextClipped_unless a0
    exact Touch.wp_run hwp mem hrun rfl
  · have hself : Alike md m.2 m.2 := by
      rw [hscreen]
      exact Video.alike_run font hgraphics back front calls
    exact batch_draws_rects mem hself hrun

/-- A batch of two rectangles, the second over a corner of the first. -/
def batchMemory (addr : Nat) : Byte :=
  (wordBytes (0x01000008) ++ wordBytes 2 ++ wordBytes 10 ++ wordBytes 20 ++ wordBytes 8 ++
    wordBytes 8 ++ wordBytes 0x00C0FFEE ++ wordBytes 14 ++ wordBytes 24 ++ wordBytes 8 ++
    wordBytes 8 ++ wordBytes 0x00FF0000).getD (addr - loadVirtBase) 0

theorem gfxCalls_exact_two :
    ∃ m' m'' : Machine,
      (syscall noFaults 3 (fun _ _ => 0) quietDevices ⟨3, false⟩ 35 0x01000000 0 0).alone batchMemory
        ((blankKernel, rootTask 0 true),
          Video.initVideo Video.mode640 (fun _ _ => 0) (fun _ _ => 0)) = some (1, m') ∧
      (rectCalls noFaults 3 (fun _ _ => 0) quietDevices ⟨3, false⟩ 2 0x01000008).alone batchMemory
        ((blankKernel, rootTask 0 true),
          Video.initVideo Video.mode640 (fun _ _ => 0) (fun _ _ => 0)) = some ((), m'') ∧
      m'.2.target = m''.2.target := by
  obtain ⟨bytes, m'', hbytes, hcalls, _, htarget⟩ :=
    (gfxCalls_exact noFaults 3 (fun _ _ => 0) quietDevices ⟨3, false⟩ 0x01000000 0 0 Video.mode640
      (by unfold Video.Mode.Graphics Video.mode640; decide) (fun _ _ => 0) (fun _ _ => 0) []).2
      batchMemory ((blankKernel, rootTask 0 true),
        Video.initVideo Video.mode640 (fun _ _ => 0) (fun _ _ => 0)) _ rfl rfl
  cases hbytes
  exact ⟨_, m'', rfl, hcalls, htarget⟩

end User
end MiniDos
