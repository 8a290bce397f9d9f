import Mathlib.Algebra.Group.Nat.Defs
import MiniDos.Lib.Stores
import MiniDos.Apps.Arena

/-!
# MiniDos.Apps.Slot

The slot of an app: its image from the load address on, and from the top of the slot downwards the
runtime block and one stack for every pid an app can have. `shell_apps_runtime_block_virt_for_slot`
to `shell_apps_phys_addr_for_virtual`, and the launch of a task.

* `SlotLaidOut`: the areas are disjoint and fill the slot.
* `prepareUserLaunch_spec`: a launch stores in the runtime block and in the stack of its own pid only.
* `slot_laid_out`: both, for every image size and every task that gets a slot of that size.
-/

namespace MiniDos
namespace Apps

open Sched Cells

def loadVirtBase : Nat := 0x01000000
def runtimeBlockBytes : Nat := pageSize
def syscallStubOffset : Nat := 0x20
def exitStubOffset : Nat := 0x40
def threadStubOffset : Nat := 0x60

def runtimeBlockVirtForSlot (slotBytes : Nat) : Nat :=
  if slotBytes < runtimeReservedBytes ∨ slotMaxSize < slotBytes then 0
  else loadVirtBase + slotBytes - runtimeBlockBytes

def runtimeBlockVirt (task : AppTask) : Nat := runtimeBlockVirtForSlot task.slotBytes

def userImageLimitForSlot (slotBytes : Nat) : Nat :=
  if slotBytes < runtimeReservedBytes ∨ slotMaxSize < slotBytes then 0
  else loadVirtBase + slotBytes - runtimeReservedBytes

def userStackTopForPid (task : AppTask) (pid : Nat) : Nat :=
  if pid < slotFirstPid ∨ maxProcesses ≤ pid then 0
  else if runtimeBlockVirt task = 0 then 0
  else runtimeBlockVirt task - (pid - slotFirstPid) * threadStackBytes

def stubVirt (task : AppTask) (offset : Nat) : Nat :=
  if runtimeBlockVirt task = 0 then 0 else runtimeBlockVirt task + offset

def syscallStubVirt (task : AppTask) : Nat := stubVirt task syscallStubOffset
def exitStubVirt (task : AppTask) : Nat := stubVirt task exitStubOffset
def threadStubVirt (task : AppTask) : Nat := stubVirt task threadStubOffset

def physAddrForVirtual (task : AppTask) (virt : Nat) : Nat :=
  if task.physBase = 0 then 0
  else if task.slotBytes = 0 ∨ slotMaxSize < task.slotBytes then 0
  else if virt < loadVirtBase ∨ loadVirtBase + task.slotBytes ≤ virt then 0
  else (task.physBase + (virt - loadVirtBase)) % 2 ^ 32

/-! ## Stores -/

abbrev Memory := Nat → UInt8

def storeBytes (mem : Memory) (dst : Nat) (bs : List UInt8) : Memory :=
  putList (fun i => (dst + i) % 2 ^ 32) bs mem

/-- `shell_apps_mem_zero`. -/
def memZero (mem : Memory) (dst size : Nat) : Memory := storeBytes mem dst (List.replicate size 0)

def wordBytes (w : Nat) : List UInt8 :=
  [UInt8.ofNat w, UInt8.ofNat (w / 2 ^ 8), UInt8.ofNat (w / 2 ^ 16), UInt8.ofNat (w / 2 ^ 24)]

def storeWords (mem : Memory) (dst : Nat) (ws : List Nat) : Memory :=
  storeBytes mem dst (ws.flatMap wordBytes)

section Stores

variable {mem : Memory} {dst x : Nat} {bs : List UInt8}

theorem storeBytes_frame (hfit : dst + bs.length ≤ 2 ^ 32)
    (hx : ¬ (dst ≤ x ∧ x < dst + bs.length)) : storeBytes mem dst bs x = mem x := by
  apply putList_frame
  intro i hi
  rw [Nat.mod_eq_of_lt (by omega)]
  omega

theorem storeBytes_apply (hfit : dst + bs.length ≤ 2 ^ 32) {k : Nat} (hk : k < bs.length) :
    storeBytes mem dst bs (dst + k) = bs[k] :=
  putList_run (fun i hi => Nat.mod_eq_of_lt (by omega)) hk

theorem memZero_apply {size : Nat} (hfit : dst + size ≤ 2 ^ 32) (hx : dst ≤ x)
    (hx' : x < dst + size) : memZero mem dst size x = 0 := by
  have hk : x - dst < (List.replicate size (0 : UInt8)).length := by
    rw [List.length_replicate]
    omega
  have : storeBytes mem dst (List.replicate size 0) (dst + (x - dst)) = _ :=
    storeBytes_apply (by simpa using hfit) hk
  rw [show dst + (x - dst) = x by omega] at this
  simpa [memZero] using this

theorem memZero_frame {size : Nat} (hfit : dst + size ≤ 2 ^ 32)
    (hx : ¬ (dst ≤ x ∧ x < dst + size)) : memZero mem dst size x = mem x :=
  storeBytes_frame (by simpa using hfit) (by simpa using hx)

theorem length_words (ws : List Nat) : (ws.flatMap wordBytes).length = 4 * ws.length := by
  induction ws with
  | nil => rfl
  | cons w ws ih => simp [wordBytes, ih]; omega

end Stores

section Stack

variable {mem : Memory} {low n dst : Nat} {ws : List Nat}

theorem stack_words (hend : dst + 4 * ws.length = low + n) (hfit : low + n ≤ 2 ^ 32) {k : Nat}
    (hk : k < (ws.flatMap wordBytes).length) :
    storeWords (memZero mem low n) dst ws (dst + k) = (ws.flatMap wordBytes)[k] :=
  storeBytes_apply (by rw [length_words]; omega) hk

theorem stack_zeroed (hend : dst + 4 * ws.length = low + n) (hfit : low + n ≤ 2 ^ 32) {x : Nat}
    (h1 : low ≤ x) (h2 : x < dst) : storeWords (memZero mem low n) dst ws x = 0 := by
  have hlen := length_words ws
  rw [storeWords, storeBytes_frame (by omega) (by omega)]
  exact memZero_apply hfit h1 (by omega)

theorem stack_frame (hend : dst + 4 * ws.length = low + n) (hfit : low + n ≤ 2 ^ 32)
    (hroom : 4 * ws.length ≤ n) {x : Nat} (hx : ¬ (low ≤ x ∧ x < low + n)) :
    storeWords (memZero mem low n) dst ws x = mem x := by
  have hlen := length_words ws
  rw [storeWords, storeBytes_frame (by omega) (by omega)]
  exact memZero_frame hfit hx

end Stack

/-! ## Launching -/

def appSyscallStub : List UInt8 :=
  [0x53, 0x8B, 0x44, 0x24, 0x08, 0x8B, 0x5C, 0x24, 0x0C, 0x8B, 0x4C, 0x24, 0x10, 0x8B, 0x54, 0x24,
    0x14, 0xCD, 0x80, 0x5B, 0xC3]

/-- `MINIDOS_SYSCALL_EXIT` is 32. -/
def appExitStub : List UInt8 :=
  [0x89, 0xC3, 0xB8, 32, 0x00, 0x00, 0x00, 0xCD, 0x80, 0xEB, 0xFE]

def appThreadStub : List UInt8 :=
  [0x8B, 0x44, 0x24, 0x04, 0x8B, 0x4C, 0x24, 0x08, 0x8B, 0x54, 0x24, 0x0C, 0x52, 0x51, 0xFF, 0xD0,
    0x83, 0xC4, 0x08, 0xC3]

/-- A record with the two fields that only a launch reads. -/
structure LaunchTask extends AppTask where
  entryVirtual : Nat
  threadArg : Nat

/-- `shell_apps_prepare_runtime_block`. -/
def prepareRuntimeBlock (task : AppTask) (mem : Memory) : Memory × Bool :=
  if runtimeBlockVirt task = 0 then (mem, false)
  else
    let basePhys := physAddrForVirtual task (runtimeBlockVirt task)
    if basePhys = 0 then (mem, false)
    else
      let mem := storeWords mem basePhys [syscallStubVirt task]
      let mem := storeBytes mem (basePhys + syscallStubOffset) appSyscallStub
      let mem := storeBytes mem (basePhys + exitStubOffset) appExitStub
      (storeBytes mem (basePhys + threadStubOffset) appThreadStub, true)

/-- What the stack of a task holds when it starts: for the leader of a group a return address and
the argument of its entry point, for a thread the arguments of the thread stub. -/
def launchWords (task : LaunchTask) : List Nat :=
  if task.pid = groupLeaderPid task.toAppTask then
    [exitStubVirt task.toAppTask, runtimeBlockVirt task.toAppTask]
  else
    [exitStubVirt task.toAppTask, task.entryVirtual, runtimeBlockVirt task.toAppTask,
      task.threadArg]

def launchEntry (task : LaunchTask) : Nat :=
  if task.pid = groupLeaderPid task.toAppTask then task.entryVirtual
  else threadStubVirt task.toAppTask

/-- `shell_apps_prepare_user_launch`: the memory, and entry point and stack pointer or `none` when
it returns 0. -/
def prepareUserLaunch (task : LaunchTask) (mem : Memory) : Memory × Option (Nat × Nat) :=
  let r := prepareRuntimeBlock task.toAppTask mem
  if ¬ r.2 then (r.1, none)
  else if runtimeBlockVirt task.toAppTask = 0 ∨ exitStubVirt task.toAppTask = 0 ∨
      threadStubVirt task.toAppTask = 0 then (r.1, none)
  else
    let stackTop := userStackTopForPid task.toAppTask task.pid
    let stackBase :=
      physAddrForVirtual task.toAppTask ((stackTop + 2 ^ 32 - threadStackBytes) % 2 ^ 32)
    if stackTop = 0 ∨ stackBase = 0 then (r.1, none)
    else
      let mem := memZero r.1 stackBase threadStackBytes
      let size := 4 * (launchWords task).length
      let stackWords := (physAddrForVirtual task.toAppTask stackTop + 2 ^ 32 - size) % 2 ^ 32
      (storeWords mem stackWords (launchWords task), some (launchEntry task, stackTop - size))

/-! ## The areas of a slot -/

inductive Area where
  | image
  | stack (pid : Nat)
  | runtime
  deriving DecidableEq

namespace Area

def Has (task : AppTask) : Area → Nat → Prop
  | image, v => loadVirtBase ≤ v ∧ v < userImageLimitForSlot task.slotBytes
  | stack pid, v =>
    userStackTopForPid task pid - threadStackBytes ≤ v ∧ v < userStackTopForPid task pid
  | runtime, v => runtimeBlockVirt task ≤ v ∧ v < runtimeBlockVirt task + runtimeBlockBytes

/-- Stacks are those of the pids that an app can have. -/
def Used : Area → Prop
  | stack pid => slotFirstPid ≤ pid ∧ pid < maxProcesses
  | _ => True

end Area

/-- The areas of the slot are disjoint, they fill it, and the image fits in its own. -/
structure SlotLaidOut (task : AppTask) (imageBytes : Nat) : Prop where
  fits : loadVirtBase + imageBytes ≤ userImageLimitForSlot task.slotBytes
  inside : ∀ a v, Area.Used a → a.Has task v →
    loadVirtBase ≤ v ∧ v < loadVirtBase + task.slotBytes
  disjoint : ∀ a b v, Area.Used a → Area.Used b → a.Has task v → b.Has task v → a = b
  covered : ∀ v, loadVirtBase ≤ v → v < loadVirtBase + task.slotBytes →
    ∃ a, Area.Used a ∧ a.Has task v

/-- Room for the stacks and the runtime block, and not more than a slot may have. -/
def Sized (slotBytes : Nat) : Prop := runtimeReservedBytes ≤ slotBytes ∧ slotBytes ≤ slotMaxSize

theorem requiredSlotBytes_sized {imageBytes slotBytes : Nat}
    (h : requiredSlotBytes imageBytes = slotBytes) (h0 : slotBytes ≠ 0) :
    Sized slotBytes ∧ imageBytes ≤ slotBytes - runtimeReservedBytes := by
  have hres : runtimeReservedBytes = 21 * pageSize := by decide
  have hmax : slotMaxSize = 1024 * pageSize := by decide
  by_cases himage : imageBytes = 0 ∨ slotMaxSize - runtimeReservedBytes < imageBytes
  · simp only [requiredSlotBytes, if_pos himage] at h
    exact absurd h.symm h0
  · have hle : imageBytes ≤ arenaSize := by
      simp only [arenaSize] at *
      omega
    by_cases hround : alignUp imageBytes pageSize = 0 ∨
        slotMaxSize - runtimeReservedBytes < alignUp imageBytes pageSize
    · simp only [requiredSlotBytes, if_neg himage, if_pos hround] at h
      exact absurd h.symm h0
    · simp only [requiredSlotBytes, if_neg himage, if_neg hround] at h
      rw [alignUp_eq hle] at h hround
      have hsum : pagesFor imageBytes * pageSize + runtimeReservedBytes =
          (pagesFor imageBytes + 21) * pageSize := by rw [hres, Nat.add_mul]
      have hfit : pagesFor imageBytes + 21 ≤ arenaPageCount := by
        rw [arenaPageCount_eq]
        simp only [pageSize] at *
        omega
      rw [hsum, alignUp_self hfit] at h
      have hpages : imageBytes ≤ pagesFor imageBytes * pageSize := by
        simp only [pagesFor, pageSize]
        omega
      rw [arenaPageCount_eq] at hfit
      simp only [Sized, hres, hmax, pageSize] at *
      omega

section Layout

variable {task : AppTask} (h : Sized task.slotBytes)

include h

theorem runtimeBlockVirt_eq : runtimeBlockVirt task = loadVirtBase + task.slotBytes - pageSize := by
  have hn : ¬ (task.slotBytes < runtimeReservedBytes ∨ slotMaxSize < task.slotBytes) := by
    have := h.1
    have := h.2
    omega
  simp [runtimeBlockVirt, runtimeBlockVirtForSlot, hn, runtimeBlockBytes]

theorem userImageLimit_eq :
    userImageLimitForSlot task.slotBytes = loadVirtBase + task.slotBytes - runtimeReservedBytes := by
  have hn : ¬ (task.slotBytes < runtimeReservedBytes ∨ slotMaxSize < task.slotBytes) := by
    have := h.1
    have := h.2
    omega
  simp [userImageLimitForSlot, hn]

theorem runtimeBlockVirt_ne_zero : runtimeBlockVirt task ≠ 0 := by
  rw [runtimeBlockVirt_eq h]
  simp only [loadVirtBase, pageSize]
  omega

theorem userStackTop_eq {pid : Nat} (h1 : slotFirstPid ≤ pid) (h2 : pid < maxProcesses) :
    userStackTopForPid task pid =
      loadVirtBase + task.slotBytes - pageSize - (pid - slotFirstPid) * threadStackBytes := by
  have hn : ¬ (pid < slotFirstPid ∨ maxProcesses ≤ pid) := by omega
  simp only [userStackTopForPid, if_neg hn, if_neg (runtimeBlockVirt_ne_zero h)]
  rw [runtimeBlockVirt_eq h]

theorem has_iff {a : Area} (ha : a.Used) {v : Nat} : a.Has task v ↔
    match a with
    | .image => loadVirtBase ≤ v ∧ v < loadVirtBase + task.slotBytes - 0x15000
    | .stack pid => loadVirtBase + task.slotBytes - 0x1000 - (pid - 3) * 0x4000 - 0x4000 ≤ v ∧
        v < loadVirtBase + task.slotBytes - 0x1000 - (pid - 3) * 0x4000
    | .runtime => loadVirtBase + task.slotBytes - 0x1000 ≤ v ∧
        v < loadVirtBase + task.slotBytes := by
  have hpos : 0x15000 ≤ task.slotBytes := h.1
  cases a with
  | image =>
    simp only [Area.Has, userImageLimit_eq h]
    exact Iff.rfl
  | stack pid =>
    simp only [Area.Has, userStackTop_eq h ha.1 ha.2]
    exact Iff.rfl
  | runtime =>
    simp only [Area.Has, runtimeBlockVirt_eq h, runtimeBlockBytes, pageSize]
    omega

theorem sized_laid_out {imageBytes : Nat}
    (himage : imageBytes ≤ task.slotBytes - runtimeReservedBytes) : SlotLaidOut task imageBytes := by
  have hpos : 0x15000 ≤ task.slotBytes := h.1
  have hb : loadVirtBase = 0x1000000 := rfl
  constructor
  case fits =>
    rw [userImageLimit_eq h]
    have := h.1
    omega
  case inside =>
    intro a v ha hv
    rw [has_iff h ha] at hv
    cases a with
    | image => simp only at hv; omega
    | stack pid =>
      have hp3 : 3 ≤ pid := ha.1
      have hp : pid < 8 := ha.2
      simp only at hv
      omega
    | runtime => simp only at hv; omega
  case disjoint =>
    intro a b v ha hb' hav hbv
    rw [has_iff h ha] at hav
    rw [has_iff h hb'] at hbv
    cases a with
    | image =>
      cases b with
      | image => rfl
      | stack q =>
        have hq : q < 8 := hb'.2
        simp only at hav hbv
        omega
      | runtime => simp only at hav hbv; omega
    | stack pid =>
      have hp3 : 3 ≤ pid := ha.1
      have hp : pid < 8 := ha.2
      cases b with
      | image => simp only at hav hbv; omega
      | stack q =>
        have hq3 : 3 ≤ q := hb'.1
        have hq : q < 8 := hb'.2
        simp only at hav hbv
        have : pid = q := by omega
        rw [this]
      | runtime => simp only at hav hbv; omega
    | runtime =>
      cases b with
      | image => simp only at hav hbv; omega
      | stack q => simp only at hav hbv; omega
      | runtime => rfl
  case covered =>
    intro v h1 h2
    by_cases himg : v < loadVirtBase + task.slotBytes - 0x15000
    · exact ⟨.image, trivial, (has_iff h (a := .image) trivial).mpr ⟨h1, himg⟩⟩
    by_cases hrun : loadVirtBase + task.slotBytes - 0x1000 ≤ v
    · exact ⟨.runtime, trivial, (has_iff h (a := .runtime) trivial).mpr ⟨hrun, h2⟩⟩
    -- the stacks lie between the two, the first pid's on top
    let index := (loadVirtBase + task.slotBytes - 0x1000 - 1 - v) / 0x4000
    have hused : Area.Used (.stack (3 + index)) := by
      have : index < 5 := by omega
      exact ⟨Nat.le_add_right 3 index, show 3 + index < 8 by omega⟩
    refine ⟨.stack (3 + index), hused, (has_iff h hused).mpr ?_⟩
    simp only
    omega

end Layout

/-! ## What a launch stores -/

theorem length_launchWords (task : LaunchTask) :
    (launchWords task).length = 2 ∨ (launchWords task).length = 4 := by
  unfold launchWords
  split
  · exact .inl rfl
  · exact .inr rfl

/-- The slot lies in physical memory. -/
def Backed (task : AppTask) : Prop :=
  Sized task.slotBytes ∧ task.physBase ≠ 0 ∧ task.physBase + task.slotBytes ≤ 2 ^ 32

section Launch

variable {task : LaunchTask} {mem : Memory} (hb : Backed task.toAppTask)

include hb

theorem physAddr_eq {v : Nat} (h1 : loadVirtBase ≤ v) (h2 : v < loadVirtBase + task.slotBytes) :
    physAddrForVirtual task.toAppTask v = task.physBase + (v - loadVirtBase) := by
  have hpos : 0x15000 ≤ task.slotBytes := hb.1.1
  have hmax : task.slotBytes ≤ slotMaxSize := hb.1.2
  have hfit := hb.2.2
  have hsize : ¬ (task.slotBytes = 0 ∨ slotMaxSize < task.slotBytes) := by omega
  have hin : ¬ (v < loadVirtBase ∨ loadVirtBase + task.slotBytes ≤ v) := by omega
  simp only [physAddrForVirtual, if_neg hb.2.1, if_neg hsize, if_neg hin]
  exact Nat.mod_eq_of_lt (by omega)

theorem physAddr_runtimeBlock : physAddrForVirtual task.toAppTask (runtimeBlockVirt task.toAppTask) =
    task.physBase + (task.slotBytes - 0x1000) := by
  have hpos : 0x15000 ≤ task.slotBytes := hb.1.1
  have hbase : loadVirtBase = 0x1000000 := rfl
  have hpage : pageSize = 0x1000 := rfl
  rw [runtimeBlockVirt_eq hb.1, physAddr_eq hb (by omega) (by omega)]
  omega

theorem prepareRuntimeBlock_spec :
    (prepareRuntimeBlock task.toAppTask mem).2 = true ∧
    ∀ x, ¬ (task.physBase + (task.slotBytes - 0x1000) ≤ x ∧ x < task.physBase + task.slotBytes) →
      (prepareRuntimeBlock task.toAppTask mem).1 x = mem x := by
  have hpos : 0x15000 ≤ task.slotBytes := hb.1.1
  have hfit := hb.2.2
  have hne : ¬ task.physBase + (task.slotBytes - 0x1000) = 0 := by omega
  have hlen4 : ∀ w, ([w].flatMap wordBytes).length = 4 := fun w => length_words [w]
  simp only [prepareRuntimeBlock, if_neg (runtimeBlockVirt_ne_zero hb.1), physAddr_runtimeBlock hb,
    if_neg hne]
  refine ⟨trivial, fun x hx => ?_⟩
  have hthread : appThreadStub.length = 20 := rfl
  have hexit : appExitStub.length = 11 := rfl
  have hsyscall : appSyscallStub.length = 21 := rfl
  simp only [storeWords, syscallStubOffset, exitStubOffset, threadStubOffset]
  rw [storeBytes_frame (by omega) (by omega), storeBytes_frame (by omega) (by omega),
    storeBytes_frame (by omega) (by omega),
    storeBytes_frame (by rw [hlen4]; omega) (by rw [hlen4]; omega)]

theorem stack_spec {pid : Nat} (hpid : Area.Used (.stack pid)) :
    ∃ top, userStackTopForPid task.toAppTask pid = loadVirtBase + top ∧ threadStackBytes ≤ top ∧
      top + 0x1000 ≤ task.slotBytes ∧ ∀ v, (Area.stack pid).Has task.toAppTask v ↔
        loadVirtBase + (top - threadStackBytes) ≤ v ∧ v < loadVirtBase + top := by
  have hpos : 0x15000 ≤ task.slotBytes := hb.1.1
  have hp3 : 3 ≤ pid := hpid.1
  have hp8 : pid < 8 := hpid.2
  have htop : userStackTopForPid task.toAppTask pid =
      loadVirtBase + (task.slotBytes - 0x1000 - (pid - 3) * 0x4000) := by
    rw [userStackTop_eq hb.1 hpid.1 hpid.2]
    simp only [loadVirtBase, pageSize, slotFirstPid, threadStackBytes]
    omega
  have hstack : threadStackBytes = 0x4000 := rfl
  refine ⟨_, htop, by omega, by omega, fun v => ?_⟩
  simp only [Area.Has, htop]
  omega

theorem runtime_spec (v : Nat) : Area.runtime.Has task.toAppTask v ↔
    loadVirtBase + (task.slotBytes - 0x1000) ≤ v ∧ v < loadVirtBase + task.slotBytes := by
  have hpos : 0x15000 ≤ task.slotBytes := hb.1.1
  rw [has_iff hb.1 (a := .runtime) trivial]
  simp only
  omega

/-- The memory behind a launch: the stack is zeroed and gets its words. -/
theorem prepareUserLaunch_eq {top : Nat}
    (htop : userStackTopForPid task.toAppTask task.pid = loadVirtBase + top)
    (hlow : threadStackBytes ≤ top) (hhigh : top + 0x1000 ≤ task.slotBytes) :
    prepareUserLaunch task mem =
      (storeWords (memZero (prepareRuntimeBlock task.toAppTask mem).1
          (task.physBase + (top - threadStackBytes)) threadStackBytes)
          (task.physBase + top - 4 * (launchWords task).length) (launchWords task),
        some (launchEntry task, loadVirtBase + top - 4 * (launchWords task).length)) := by
  have hmax : task.slotBytes ≤ 0x400000 := hb.1.2
  have hbase : loadVirtBase = 0x1000000 := rfl
  have hstack : threadStackBytes = 0x4000 := rfl
  have hne := hb.2.1
  have hfit := hb.2.2
  have hstubs : ¬ (runtimeBlockVirt task.toAppTask = 0 ∨ exitStubVirt task.toAppTask = 0 ∨
      threadStubVirt task.toAppTask = 0) := by
    have hnz := runtimeBlockVirt_ne_zero hb.1
    simp [exitStubVirt, threadStubVirt, stubVirt, hnz]
  have hphysTop : physAddrForVirtual task.toAppTask (loadVirtBase + top) = task.physBase + top := by
    rw [physAddr_eq hb (by omega) (by omega), Nat.add_sub_cancel_left]
  have hphysBase : physAddrForVirtual task.toAppTask
      ((loadVirtBase + top + 2 ^ 32 - threadStackBytes) % 2 ^ 32) =
      task.physBase + (top - threadStackBytes) := by
    have hv : (loadVirtBase + top + 2 ^ 32 - threadStackBytes) % 2 ^ 32 =
        loadVirtBase + (top - threadStackBytes) := by omega
    rw [hv, physAddr_eq hb (by omega) (by omega), Nat.add_sub_cancel_left]
  have hstart : ¬ (loadVirtBase + top = 0 ∨ task.physBase + (top - threadStackBytes) = 0) := by omega
  have hlen := length_launchWords task
  have hwords : (task.physBase + top + 2 ^ 32 - 4 * (launchWords task).length) % 2 ^ 32 =
      task.physBase + top - 4 * (launchWords task).length := by omega
  simp only [prepareUserLaunch, (prepareRuntimeBlock_spec hb).1, not_true_eq_false, if_false,
    if_neg hstubs, htop, hphysBase, if_neg hstart, hphysTop, hwords]

end Launch

/-- A task has been launched: the words that its entry point finds lie on top of its own stack, the
rest of that stack is zero, and nothing outside it and the runtime block has changed. -/
structure Launched (task : LaunchTask) (mem mem' : Memory) (esp : Nat) : Prop where
  top : esp + 4 * (launchWords task).length = userStackTopForPid task.toAppTask task.pid
  own : ∀ v, esp ≤ v → v < esp + 4 * (launchWords task).length →
    (Area.stack task.pid).Has task.toAppTask v
  words : ∀ k (hk : k < ((launchWords task).flatMap wordBytes).length),
    mem' (physAddrForVirtual task.toAppTask (esp + k)) = ((launchWords task).flatMap wordBytes)[k]
  zeroed : ∀ v, (Area.stack task.pid).Has task.toAppTask v → v < esp →
    mem' (physAddrForVirtual task.toAppTask v) = 0
  frame : ∀ x, mem' x ≠ mem x → ∃ (a : Area) (v : Nat), (a = .stack task.pid ∨ a = .runtime) ∧
    a.Has task.toAppTask v ∧ x = physAddrForVirtual task.toAppTask v
  others : ∀ (a : Area) (v : Nat), a.Used → a ≠ .stack task.pid → a ≠ .runtime →
    a.Has task.toAppTask v →
    mem' (physAddrForVirtual task.toAppTask v) = mem (physAddrForVirtual task.toAppTask v)

/-- A launch of a task with an app's pid in a slot that lies in memory succeeds. -/
theorem prepareUserLaunch_spec {task : LaunchTask} {mem : Memory} (hb : Backed task.toAppTask)
    (hpid : Area.Used (.stack task.pid)) :
    ∃ mem' esp, prepareUserLaunch task mem = (mem', some (launchEntry task, esp)) ∧
      Launched task mem mem' esp := by
  have hfit := hb.2.2
  have hstackBytes : threadStackBytes = 0x4000 := rfl
  obtain ⟨top, htop, hlow, hhigh, hstack⟩ := stack_spec hb hpid
  have hlen := length_launchWords task
  have hbytes := length_words (launchWords task)
  have hend : task.physBase + top - 4 * (launchWords task).length + 4 * (launchWords task).length =
      task.physBase + (top - threadStackBytes) + threadStackBytes := by omega
  have hinto : task.physBase + (top - threadStackBytes) + threadStackBytes ≤ 2 ^ 32 := by omega
  have hphys : ∀ v, loadVirtBase ≤ v → v < loadVirtBase + task.slotBytes →
      physAddrForVirtual task.toAppTask v = task.physBase + (v - loadVirtBase) :=
    fun v => physAddr_eq hb
  refine ⟨_, _, prepareUserLaunch_eq hb htop hlow hhigh, ?_⟩
  -- outside the stack and the runtime block nothing is stored
  have hframe : ∀ x, ¬ (task.physBase + (top - threadStackBytes) ≤ x ∧ x < task.physBase + top) →
      ¬ (task.physBase + (task.slotBytes - 0x1000) ≤ x ∧ x < task.physBase + task.slotBytes) →
      storeWords (memZero (prepareRuntimeBlock task.toAppTask mem).1
        (task.physBase + (top - threadStackBytes)) threadStackBytes)
        (task.physBase + top - 4 * (launchWords task).length) (launchWords task) x = mem x := by
    intro x h1 h2
    rw [stack_frame hend hinto (by omega) (by omega)]
    exact (prepareRuntimeBlock_spec hb).2 x h2
  constructor
  case top => rw [htop]; omega
  case own =>
    intro v h1 h2
    exact (hstack v).mpr (by omega)
  case words =>
    intro k hk
    rw [hphys _ (by omega) (by omega), show task.physBase +
      (loadVirtBase + top - 4 * (launchWords task).length + k - loadVirtBase) =
      task.physBase + top - 4 * (launchWords task).length + k by omega]
    exact stack_words hend hinto hk
  case zeroed =>
    intro v hv hlt
    have := (hstack v).mp hv
    rw [hphys _ (by omega) (by omega)]
    exact stack_zeroed hend hinto (by omega) (by omega)
  case frame =>
    intro x hx
    by_cases h1 : task.physBase + (top - threadStackBytes) ≤ x ∧ x < task.physBase + top
    · refine ⟨_, loadVirtBase + (x - task.physBase), .inl rfl, (hstack _).mpr (by omega), ?_⟩
      rw [hphys _ (by omega) (by omega)]
      omega
    by_cases h2 : task.physBase + (task.slotBytes - 0x1000) ≤ x ∧ x < task.physBase + task.slotBytes
    · refine ⟨_, loadVirtBase + (x - task.physBase), .inr rfl,
        (runtime_spec hb _).mpr (by omega), ?_⟩
      rw [hphys _ (by omega) (by omega)]
      omega
    exact absurd (hframe x h1 h2) hx
  case others =>
    -- an address of another area is not one of the two areas stored to
    intro a v ha hns hnr hv
    have hlaid : SlotLaidOut _ 0 := sized_laid_out hb.1 (Nat.zero_le _)
    have hin := hlaid.inside a v ha hv
    rw [hphys v hin.1 hin.2]
    refine hframe _ (fun hst => hns ?_) (fun hrt => hnr ?_)
    · exact hlaid.disjoint a _ v ha hpid hv ((hstack v).mpr (by omega))
    · exact hlaid.disjoint a .runtime v ha trivial hv ((runtime_spec hb v).mpr (by omega))

/-- For every image size that gets a slot, the areas of the slot are disjoint and fill it, and every
launch of an app's pid in such a slot keeps to its own stack and the runtime block. -/
theorem slot_laid_out {imageBytes : Nat} (task : LaunchTask)
    (hslot : requiredSlotBytes imageBytes = task.slotBytes) (h0 : task.slotBytes ≠ 0) :
    SlotLaidOut task.toAppTask imageBytes ∧
      (task.physBase ≠ 0 → task.physBase + task.slotBytes ≤ 2 ^ 32 → Area.Used (.stack task.pid) →
        ∀ mem, ∃ mem' esp, prepareUserLaunch task mem = (mem', some (launchEntry task, esp)) ∧
          Launched task mem mem' esp) := by
  obtain ⟨hsized, himage⟩ := requiredSlotBytes_sized hslot h0
  refine ⟨sized_laid_out hsized himage, fun hne hfit hpid mem => ?_⟩
  exact prepareUserLaunch_spec ⟨hsized, hne, hfit⟩ hpid

/-- The thread with pid 4 of an app with a one-page image, in the second page of the arena. -/
theorem slot_laid_out_thread : ∃ task : LaunchTask, requiredSlotBytes 1 = task.slotBytes ∧
    SlotLaidOut task.toAppTask 1 ∧ ∃ mem' esp,
      prepareUserLaunch task (fun _ => 0) = (mem', some (launchEntry task, esp)) ∧
        Launched task (fun _ => 0) mem' esp := by
  let task : LaunchTask :=
    ⟨⟨true, 4, 3, true, false, false, 0x701000, 0x16000, none⟩, 0x1000010, 7⟩
  have hslot : requiredSlotBytes 1 = task.slotBytes := by decide
  obtain ⟨hlaid, hlaunch⟩ := slot_laid_out task hslot (by decide)
  exact ⟨task, hslot, hlaid, hlaunch (by decide) (by decide) ⟨by decide, by decide⟩ _⟩

end Apps
end MiniDos
