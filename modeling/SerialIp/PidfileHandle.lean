import SerialIp.LockDirectory

/-! `pidfile_handle.c` as programs over its calls. Closing a file, setting its
mode, sleeping and logging change neither names nor contents and are left out. -/
namespace SerialIp
open Library Library.Program

abbrev Posix := Program Call Call.Result

namespace Posix

abbrev openCreat (pathname : Path) : Posix (Except Errno Nat) := invoke (Call.openCreat pathname)
abbrev openRdonly (pathname : Path) : Posix (Except Errno Nat) := invoke (Call.openRdonly pathname)
abbrev fstat (fd : Nat) : Posix (Except Errno Nat) := invoke (Call.fstat fd)
abbrev read (fd nbytes : Nat) : Posix (Except Errno (List UInt8)) := invoke (Call.read fd nbytes)
abbrev write (fd : Nat) (bytes : List UInt8) : Posix (Except Errno Nat) := invoke (Call.write fd bytes)
abbrev link (oldPath newPath : Path) : Posix (Except Errno Unit) := invoke (Call.link oldPath newPath)
abbrev unlink (pathname : Path) : Posix (Except Errno Unit) := invoke (Call.unlink pathname)
abbrev kill (pid : Pid) : Posix (Except Errno Unit) := invoke (Call.kill pid)
abbrev stack : Posix Pid := invoke Call.stack

end Posix
open Posix

def writePidfile (pathname : Path) (pid : Pid) : Posix Int := do
  match ← openCreat pathname with
  | .error _ => return -1
  | .ok fd =>
    match ← write fd (pidBytes pid) with
    | .ok 4 => return 0
    | _ =>
      let _ ← unlink pathname
      return 1

/-- The end of `verify_device_lock_state`: the returned pid and whether it exists. -/
def checkPid (pid : Pid) : Posix (Int × Pid) := do
  if pid.toInt < 1 then return (-1,pid)
  match ← kill pid with
  | .error .ESRCH => return (1,pid)
  | _ => return (0,pid)

def verifyDeviceLockState (deviceLockfile : Path) : Posix (Int × Pid) := do
  match ← openRdonly deviceLockfile with
  | .error _ => return (-1,0)
  | .ok fd =>
    match ← fstat fd with
    | .error _ => return (-1,0)
    | .ok size =>
      if size = sizeofPid then
        match ← read fd sizeofPid with
        | .error _ => return (-1,0)
        | .ok bytes =>
          match pidOfBytes? bytes with
          | none => return (-1,0)
          | some pid => checkPid pid
      else
        -- any other size is let through with `pid` as it was on the stack
        checkPid (← stack)

/-- Both attempts of `create_uucp_lockfile` at linking the lock file. -/
def linkLockfile (tmpname deviceLockfile : Path) : Posix (Except Errno Unit) := do
  match ← link tmpname deviceLockfile with
  | .error .EEXIST =>
    let (verifyStatus,_) ← verifyDeviceLockState deviceLockfile
    if verifyStatus = 1 then
      let _ ← unlink deviceLockfile
      link tmpname deviceLockfile
    else
      return .error .EEXIST
  | ret => return ret

def createUucpLockfile (conf : LockConfig) (device : Option Path) (pid : Pid) :
    Posix (Option Path) := do
  let tmpname := uucpTmpFilename conf pid
  let ret ← writePidfile tmpname pid
  if ret ≠ 0 then return none
  let deviceLockfile := getUucpLockDeviceFile conf device
  match ← linkLockfile tmpname deviceLockfile with
  | .error _ =>
    let _ ← unlink tmpname
    return none
  | .ok () =>
    let _ ← unlink tmpname
    let (ret,lockpid) ← verifyDeviceLockState deviceLockfile
    if ret = 0 ∧ lockpid = pid then return some deviceLockfile else return none

def unlockUucpLockfile (conf : LockConfig) (device : Option Path) : Posix Int := do
  match ← unlink (getUucpLockDeviceFile conf device) with
  | .ok () => return 0
  | .error _ => return -1

theorem unlockUucpLockfile_eq (conf : LockConfig) (device : Option Path) :
    unlockUucpLockfile conf device = .call (.unlink (getUucpLockDeviceFile conf device))
      fun ret => .done (match ret with | .ok _ => 0 | .error _ => -1) := by
  refine congrArg (Program.call _) (funext fun ret => ?_)
  cases ret <;> rfl

end SerialIp
