import SerialIp.Library.Machine
import SerialIp.PidfileHandle

/-! Any number of processes that lock and unlock devices, each file-system call
of one of them a step. -/
namespace SerialIp
open Library Library.Program

inductive Task where
  | idle
  | creating (device : Option Path) (rest : Posix (Option Path))
  | unlocking (device : Option Path) (rest : Posix Int)

/-- `held` are the lock files that `create_uucp_lockfile` has returned to the
process and that it has not unlocked since. -/
structure Process where
  held : List Path
  task : Task

structure System where
  directory : Directory
  processes : Pid → Option Process

namespace System

def start (d : Directory) : System := ⟨d,fun _ => none⟩

def alive (s : System) (pid : Pid) : Bool := (s.processes pid).isSome

def put (s : System) (pid : Pid) (process : Option Process) : System :=
  ⟨s.directory,Function.update s.processes pid process⟩

@[simp] theorem put_same (s : System) (pid : Pid) (process : Option Process) :
    (s.put pid process).processes pid = process := Function.update_self ..

theorem put_other (s : System) {pid other : Pid} (process : Option Process)
    (different : other ≠ pid) : (s.put pid process).processes other = s.processes other :=
  Function.update_of_ne different _ _

def Holds (s : System) (pid : Pid) (path : Path) : Prop :=
  ∃ process, s.processes pid = some process ∧ path ∈ process.held

def Exclusive (s : System) : Prop :=
  ∀ path first second, s.Holds first path → s.Holds second path → first = second

end System

/-- A process may die in any state, and its pid may be used again. -/
inductive Event where
  | start (pid : Pid)
  | die (pid : Pid)
  | create (pid : Pid) (device : Option Path)
  | unlock (pid : Pid) (device : Option Path)
  | proceed (pid : Pid) (e : Circumstance)

def created (held : List Path) (device : Option Path) : Posix (Option Path) → Process
  | .done none => ⟨held,.idle⟩
  | .done (some path) => ⟨path::held,.idle⟩
  | .call c next => ⟨held,.creating device (.call c next)⟩

def unlocked (conf : LockConfig) (held : List Path) (device : Option Path) : Posix Int → Process
  | .done _ => ⟨held.filter (· ≠ getUucpLockDeviceFile conf device),.idle⟩
  | .call c next => ⟨held,.unlocking device (.call c next)⟩

def lockStep (conf : LockConfig) (s : System) : Event → System
  | .start pid =>
    match s.processes pid with
    | none => s.put pid (some ⟨[],.idle⟩)
    | some _ => s
  | .die pid => s.put pid none
  | .create pid device =>
    match s.processes pid with
    | some ⟨held,.idle⟩ =>
      s.put pid (some ⟨held,.creating device (createUucpLockfile conf device pid)⟩)
    | _ => s
  | .unlock pid device =>
    match s.processes pid with
    | some ⟨held,.idle⟩ =>
      if getUucpLockDeviceFile conf device ∈ held then
        s.put pid (some ⟨held,.unlocking device (unlockUucpLockfile conf device)⟩)
      else s
    | _ => s
  | .proceed pid e =>
    match s.processes pid with
    | some ⟨held,.creating device (.call c next)⟩ =>
      let (result,directory) := perform s.alive e s.directory c
      System.put ⟨directory,s.processes⟩ pid (some (created held device (next result)))
    | some ⟨held,.unlocking device (.call c next)⟩ =>
      let (result,directory) := perform s.alive e s.directory c
      System.put ⟨directory,s.processes⟩ pid (some (unlocked conf held device (next result)))
    | _ => s

end SerialIp
