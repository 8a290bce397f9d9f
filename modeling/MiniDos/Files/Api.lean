import MiniDos.Files.DirCalls
import MiniDos.Files.OwnDrive

/-!
# MiniDos.Files.Api

The file calls that an app sees (`minidos_app.h`): strings and bytes in place of addresses.

* `FileApi`: the calls, over any world.
* `kernelApi`: the kernel and a task as such a world. Its calls are those of `shell_apps_syscall`
  (`fileRead_eq`, `fileWrite_eq`, `listEntry_eq`).
* `Stays`: reading, writing and listing leave the task in its directory.
-/

namespace MiniDos
namespace Files

open BlockIO Fat16 Drive

/-- `app_chdir`, `app_list_entry`, `app_file_read` and `app_file_write`. A listed entry is its name
and whether it is a directory. -/
structure FileApi (W : Type) where
  chdir : CStr → Action W Bool
  listEntry : Nat → Action W (Option (CStr × Bool))
  fileRead : CStr → Nat → Action W (Option (List Byte))
  fileWrite : CStr → List Byte → Action W Bool

/-- The calls that do not change the directory, told apart by `place`. -/
structure FileApi.Stays {W P : Type} (api : FileApi W) (place : W → P) : Prop where
  listEntry (i : Nat) (w : W) : (api.listEntry i).wp (fun _ w' => place w' = place w) w
  fileRead (name : CStr) (max : Nat) (w : W) : (api.fileRead name max).wp (fun _ w' => place w' = place w) w
  fileWrite (name : CStr) (bytes : List Byte) (w : W) :
    (api.fileWrite name bytes).wp (fun _ w' => place w' = place w) w

/-! ## The kernel -/

def stringArgs (s : CStr) : Args where
  a0 := 0x01000000
  a1 := 0
  a2 := 0
  mem := fun i => s.at (i - loadVirtBase)

section Kernel

variable (fails : Nat → Bool) (fuel : Nat)

def inContext {α : Type} (other : α) (p : Action (Kernel × Task) α) : Action (Kernel × Task) α := do
  let (entered, previous) ← enterDriveContext fails
  if entered then do
    let x ← p
    leaveDriveContext previous
    pure x
  else pure other

def kernelApi : FileApi (Kernel × Task) where
  chdir name := do
    let x ← chdir fails fuel (stringArgs name)
    pure (x != 0)
  listEntry index := do
    let task ← getTask
    let found ← inContext fails none
      (fat fails (fun g => getEntryByIndex g fuel task.currentDirCluster index))
    pure (found.map (fun x => (x.1, x.2.1)))
  fileRead name max := do
    let task ← getTask
    inContext fails none (do
      let bytes ← fat fails
        (fun g => readFileFromDir g fuel task.currentDirCluster (strToUpper name) max)
      pure (some bytes))
  fileWrite name bytes := do
    let task ← getTask
    inContext fails false (fat fails (fun g =>
      writeFileFromDir g fuel task.currentDirCluster (strToUpper name)
        (some (fun i => bytes.getD i 0)) bytes.length))

end Kernel

def place (s : Kernel × Task) : Nat × Nat := (s.2.drive, s.2.currentDirCluster)

section Laws

variable {fails : Nat → Bool} {fuel : Nat} {α : Type} {k : Kernel} {t : Task}

theorem wp_enter_directory : (enterDriveContext fails).wp
    (fun _ s => s.2.drive = t.drive ∧ s.2.currentDirCluster = t.currentDirCluster) (k, t) :=
  wp_entering (fun _ => ⟨rfl, rfl⟩) (fun _ _ _ _ => ⟨rfl, rfl⟩)

theorem wp_inContext_place {other : α} {p : Action (Kernel × Task) α}
    (hp : ∀ s, p.wp (fun _ s' => s'.2 = s.2) s) :
    (inContext fails other p).wp (fun _ s => place s = place (k, t)) (k, t) := by
  rw [inContext, Action.wp_bind]
  refine Action.wp_mono wp_enter_directory ?_
  rintro ⟨entered, previous⟩ ⟨k₁, t₁⟩ ⟨hdrive, hcluster⟩
  have hplace : place (k₁, t₁) = place (k, t) := Prod.ext hdrive hcluster
  refine Action.wp_ite (fun _ => ?_) (fun _ => (Action.wp_pure other).mpr hplace)
  rw [Action.wp_bind]
  refine Action.wp_mono (hp (k₁, t₁)) ?_
  rintro x ⟨k₂, t₂⟩ ht
  cases ht
  exact wp_leave_aside (fun _ _ => (Action.wp_pure x).mpr hplace)

theorem kernelApi_stays (fails : Nat → Bool) (fuel : Nat) : (kernelApi fails fuel).Stays place := by
  have hfat : ∀ {β : Type} (p : Globals → DiskProg β) (s : Kernel × Task),
      (fat fails p).wp (fun _ s' => s'.2 = s.2) s :=
    fun p s => Action.wp_mono (wp_fat_leaves p) (fun _ _ h => h.2)
  constructor
  · rintro i ⟨k, t⟩
    refine wp_task ?_
    rw [Action.wp_bind]
    refine Action.wp_mono (wp_inContext_place (hfat _)) ?_
    exact fun found s h => (Action.wp_pure _).mpr h
  · rintro name max ⟨k, t⟩
    refine wp_task (wp_inContext_place fun s => ?_)
    rw [Action.wp_bind]
    refine Action.wp_mono (hfat _ s) ?_
    exact fun bytes s' h => (Action.wp_pure _).mpr h
  · rintro name bytes ⟨k, t⟩
    exact wp_task (wp_inContext_place (hfat _))

/-! ## The system calls -/

theorem inContext_map {β : Type} (other : α) (p : Action (Kernel × Task) α) (f : α → β) :
    (inContext fails other p >>= fun x => pure (f x)) = (do
      let (entered, previous) ← enterDriveContext fails
      if entered then do
        let x ← p
        leaveDriveContext previous
        pure (f x)
      else pure (f other)) := by
  rw [inContext, Action.bind_bind]
  congr 1
  funext r
  rw [Action.ite_bind, Action.bind_bind]
  congr 1

theorem getTask_bind (f : Task → Action (Kernel × Task) α) : (getTask >>= f) (k, t) = f t (k, t) := rfl

variable {args : Args} {name : CStr}

theorem copyUserUpper_eq (hname : copyUserString t args.mem args.a0 nameSize = some name) :
    copyUserUpper t args.mem args.a0 = some (strToUpper name) := by
  rw [copyUserUpper, hname, Option.map_some]

theorem fileRead_eq (hname : copyUserString t args.mem args.a0 nameSize = some name)
    (hbuffer : ¬ (args.a1 = 0 ∨ asInt args.a2 ≤ 0 ∨ ¬ userRangeValid t args.a1 args.a2)) :
    fileRead fails fuel args (k, t) = ((kernelApi fails fuel).fileRead name args.a2.toNat >>= fun r =>
      (pure (r.elim (-1) (fun bytes => (bytes.length : Int))) : Call)) (k, t) := by
  rw [fileRead, getTask_bind, if_neg hbuffer, copyUserUpper_eq hname, kernelApi, Action.bind_bind,
    getTask_bind, inContext_map]
  simp only [Action.bind_bind, Action.ret_bind]
  rfl

theorem fileWrite_eq (hname : copyUserString t args.mem args.a0 nameSize = some name)
    (hbuffer : ¬ ((args.a1 = 0 ∧ 0 < asInt args.a2) ∨ asInt args.a2 < 0 ∨
      (0 < asInt args.a2 ∧ ¬ userRangeValid t args.a1 args.a2)))
    {bytes : List Byte} (hlength : asInt args.a2 = bytes.length)
    (hbytes : writeBuffer args = some (fun i => bytes.getD i 0)) :
    fileWrite fails fuel args (k, t) = ((kernelApi fails fuel).fileWrite name bytes >>= fun ok =>
      (pure (flag ok) : Call)) (k, t) := by
  rw [fileWrite, getTask_bind, if_neg hbuffer, copyUserUpper_eq hname, kernelApi, Action.bind_bind,
    getTask_bind, inContext_map, hbytes, hlength]
  rfl

theorem listEntry_eq (hbuffer : ¬ (args.a1 = 0 ∨ ¬ userRangeValid t args.a1 13 ∨
      (args.a2 ≠ 0 ∧ ¬ userRangeValid t args.a2 4))) :
    listEntry fails fuel args (k, t) = ((kernelApi fails fuel).listEntry args.a0.toNat >>= fun found =>
      (pure (flag found.isSome) : Call)) (k, t) := by
  rw [listEntry, getTask_bind, if_neg hbuffer, kernelApi]
  simp only [Action.bind_bind, Action.ret_bind, Option.isSome_map]
  rw [getTask_bind, inContext_map]
  rfl

end Laws

end Files
end MiniDos
