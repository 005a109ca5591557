import SerialIp.LockFailure
import SerialIp.Library.Machine

/-! The lock files of `pidfile_handle.c` as a table that says which process has which device.
The functions run one after another here, and no call of theirs fails. -/
namespace SerialIp
open Library Library.Program Library.Machine

/-- The pid of a process, for which kill() asks about this process alone. -/
abbrev ProcessPid := {pid : Pid // 1 ≤ pid.toInt}

inductive LockRequest
  | start (pid : ProcessPid)
  | exit (pid : ProcessPid)
  | create (pid : ProcessPid) (device : Option Path)
  | unlock (pid : ProcessPid) (device : Option Path)

def LockRequest.Allowed (conf : LockConfig) : LockRequest → Prop
  | .start _ | .exit _ => True
  | .create _ device | .unlock _ device => Separate conf (getUucpLockDeviceFile conf device)

/-- What `create_uucp_lockfile` and `unlock_uucp_lockfile` return. -/
inductive LockReply
  | created (lock : Option Path)
  | unlocked (ret : Int)
deriving DecidableEq

/-- What the lock files are for: each device has one owner at most, and the lock of a process
that is gone is free. -/
structure LockTable where
  owner : Path → Option Pid
  alive : Pid → Bool

def faultless (alive : Pid → Bool) (c : Call) (d : Directory) (result : c.Result) (after : Directory) :
    Prop :=
  perform alive ⟨none,sizeofPid,0⟩ d c = (result,after)

def lone {α : Type} (alive : Pid → Bool) (program : Posix α) (d : Directory) : α × Directory :=
  program.execute (fun c d => perform alive ⟨none,sizeofPid,0⟩ d c) d

namespace World

def call {α : Type} (w : World) (program : Posix α) : World :=
  {w with directory := (lone w.alive program w.directory).2}

/-- A process that is not there calls nothing. -/
def step (conf : LockConfig) (w : World) : LockRequest → World
  | .start pid => {w with alive := Function.update w.alive pid true}
  | .exit pid => {w with alive := Function.update w.alive pid false}
  | .create pid device =>
    if w.alive pid then w.call (createUucpLockfile conf device pid) else w
  | .unlock pid device => if w.alive pid then w.call (unlockUucpLockfile conf device) else w

def replies (conf : LockConfig) (w : World) : LockRequest → List LockReply
  | .start _ | .exit _ => []
  | .create pid device =>
    if w.alive pid then [.created (lone w.alive (createUucpLockfile conf device pid) w.directory).1]
    else []
  | .unlock pid device =>
    if w.alive pid then [.unlocked (lone w.alive (unlockUucpLockfile conf device) w.directory).1]
    else []

end World

namespace LockTable

def taken (t : LockTable) (lock : Path) : Bool := (t.owner lock).any t.alive

def assign (t : LockTable) (lock : Path) (owner : Option Pid) : LockTable :=
  {t with owner := Function.update t.owner lock owner}

def step (conf : LockConfig) (t : LockTable) : LockRequest → LockTable
  | .start pid => {t with alive := Function.update t.alive pid true}
  | .exit pid => {t with alive := Function.update t.alive pid false}
  | .create pid device =>
    let lock := getUucpLockDeviceFile conf device
    if t.alive pid ∧ t.taken lock = false then t.assign lock (some pid) else t
  | .unlock pid device =>
    if t.alive pid then t.assign (getUucpLockDeviceFile conf device) none else t

def replies (conf : LockConfig) (t : LockTable) : LockRequest → List LockReply
  | .start _ | .exit _ => []
  | .create pid device =>
    let lock := getUucpLockDeviceFile conf device
    if t.alive pid then [.created (if t.taken lock then none else some lock)] else []
  | .unlock pid device =>
    if t.alive pid then
      [.unlocked (if (t.owner (getUucpLockDeviceFile conf device)).isSome then 0 else -1)]
    else []

end LockTable

def Stands (d : Directory) (lock : Path) : Option Pid → Prop
  | none => d.names lock = none
  | some pid => d.Names lock pid ∧ 1 ≤ pid.toInt

/-- The lock files are those of the table, and no temporary file is there. -/
structure LockTable.Describes (conf : LockConfig) (t : LockTable) (w : World) : Prop where
  alive : w.alive = t.alive
  cleared : ∀ pid, w.directory.names (uucpTmpFilename conf pid) = none
  stands : ∀ lock, Separate conf lock → Stands w.directory lock (t.owner lock)

/-- The temporary file is written, and the lock file may have been taken away. -/
structure Staged (d base : Directory) (tmpname lock : Path) (pid : Pid) : Prop where
  placed : base.names tmpname = some d.fresh
  content : base.files d.fresh = pidBytes pid
  names : ∀ other, other ≠ tmpname → other ≠ lock → base.names other = d.names other
  files : ∀ file, file < d.fresh → base.files file = d.files file

/-- The other names are as they were, and so is every file there was. -/
structure Directory.Beside (d after : Directory) (lock : Path) : Prop where
  names : ∀ other, other ≠ lock → after.names other = d.names other
  files : ∀ file, file < d.fresh → after.files file = d.files file

section
variable {α β : Type} {alive : Pid → Bool} {d after : Directory} {path tmpname lock : Path}
  {pid other : Pid} {file : Nat}

theorem lone_invoke {c : Call} {second : c.Result → Posix β} {result : c.Result}
    (answers : faultless alive c d result after) :
    lone alive (invoke c >>= second) d = lone alive (second result) after :=
  execute_invoke answers

theorem lone_bind {first : Posix α} {second : α → Posix β} {value : α}
    (begins : lone alive first d = (value,after)) :
    lone alive (first >>= second) d = lone alive (second value) after :=
  execute_bind begins

theorem faultless_link (placed : d.names tmpname = some file) (free : d.names lock = none) :
    faultless alive (.link tmpname lock) d (.ok ()) (d.link tmpname lock) := by
  simp only [faultless,perform,Circumstance.attempt,placed,free]
  rfl

theorem faultless_link_exists (placed : d.names tmpname = some file) (named : d.Names lock other) :
    faultless alive (.link tmpname lock) d (.error .EEXIST) d := by
  obtain ⟨old,found,_⟩ := named
  simp only [faultless,perform,Circumstance.attempt,placed,found]
  rfl

theorem faultless_unlink (found : d.names path = some file) :
    faultless alive (.unlink path) d (.ok ()) (d.remove path) := by
  simp only [faultless,perform,Circumstance.attempt,found]
  rfl

theorem lone_writePidfile (absent : d.names path = none) : lone alive (writePidfile path pid) d =
    (0,(d.make path).rewrite d.fresh (pidBytes pid)) := by
  have opens : faultless alive (.openCreat path) d (.ok d.fresh) (d.make path) := by
    simp only [faultless,perform,Circumstance.attempt,absent]
    rfl
  have writes : faultless alive (.write d.fresh (pidBytes pid)) (d.make path) (.ok 4)
      ((d.make path).rewrite d.fresh (pidBytes pid)) := by
    change (Except.ok (min 4 4),(d.make path).rewrite d.fresh
      (overwrite _ ((d.make path).files d.fresh) 4)) = _
    rw [d.make_empty]
    rfl
  refine (lone_invoke opens).trans ?_
  exact lone_invoke writes

theorem lone_checkPid (valid : 1 ≤ pid.toInt) :
    lone alive (checkPid pid) d = ((if alive pid then 0 else 1,pid),d) := by
  unfold checkPid
  rw [if_neg (by omega)]
  cases lives : alive pid with
  | false =>
    have answers : faultless alive (.kill pid) d (.error .ESRCH) d := by
      simp only [faultless,perform,lives]
      rfl
    exact lone_invoke answers
  | true =>
    have answers : faultless alive (.kill pid) d (.ok ()) d := by
      simp only [faultless,perform,lives]
      rfl
    exact lone_invoke answers

theorem lone_verifyDeviceLockState (named : d.Names path pid) (valid : 1 ≤ pid.toInt) :
    lone alive (verifyDeviceLockState path) d = ((if alive pid then 0 else 1,pid),d) := by
  obtain ⟨file,found,content⟩ := named
  have opens : faultless alive (.openRdonly path) d (.ok file) d := by
    simp only [faultless,perform,Circumstance.attempt,found]
    rfl
  have sized : faultless alive (.fstat file) d (.ok sizeofPid) d := by
    change (Except.ok (d.files file).length,d) = _
    rw [content]
    rfl
  have reads : faultless alive (.read file sizeofPid) d (.ok (pidBytes pid)) d := by
    change (Except.ok ((d.files file).take (min sizeofPid sizeofPid)),d) = _
    rw [content]
    rfl
  refine (lone_invoke opens).trans ?_
  refine (lone_invoke sized).trans ?_
  refine (lone_invoke reads).trans ?_
  dsimp only
  rw [pidOfBytes?_pidBytes]
  exact lone_checkPid valid

theorem lone_verifyDeviceLockState_living (named : d.Names path pid) (valid : 1 ≤ pid.toInt)
    (lives : alive pid = true) : lone alive (verifyDeviceLockState path) d = ((0,pid),d) := by
  rw [lone_verifyDeviceLockState named valid,lives]
  rfl

theorem lone_linkLockfile_free (placed : d.names tmpname = some file) (free : d.names lock = none) :
    lone alive (linkLockfile tmpname lock) d = (.ok (),d.link tmpname lock) :=
  lone_invoke (faultless_link placed free)

theorem lone_linkLockfile_stale (placed : d.names tmpname = some file) (apart : lock ≠ tmpname)
    (named : d.Names lock other) (valid : 1 ≤ other.toInt) (gone : alive other = false) :
    lone alive (linkLockfile tmpname lock) d = (.ok (),(d.remove lock).link tmpname lock) := by
  have stale : lone alive (verifyDeviceLockState lock) d = ((1,other),d) := by
    rw [lone_verifyDeviceLockState named valid,gone]
    rfl
  obtain ⟨old,found,_⟩ := id named
  refine (lone_invoke (faultless_link_exists placed named)).trans ?_
  refine (lone_bind stale).trans ?_
  refine (lone_invoke (faultless_unlink found)).trans ?_
  have links : faultless alive (.link tmpname lock) (d.remove lock) (.ok ())
      ((d.remove lock).link tmpname lock) :=
    faultless_link ((d.remove_other apart.symm).trans placed) (d.remove_self lock)
  exact links

theorem lone_linkLockfile_held (placed : d.names tmpname = some file)
    (named : d.Names lock other) (valid : 1 ≤ other.toInt) (lives : alive other = true) :
    lone alive (linkLockfile tmpname lock) d = (.error .EEXIST,d) := by
  refine (lone_invoke (faultless_link_exists placed named)).trans ?_
  exact lone_bind (lone_verifyDeviceLockState_living named valid lives)

theorem written_staged (d : Directory) (tmpname lock : Path) (pid : Pid) :
    Staged d ((d.make tmpname).rewrite d.fresh (pidBytes pid)) tmpname lock pid where
  placed := d.make_new tmpname
  content := Directory.rewrite_self ..
  names _ apart _ := d.make_other apart
  files file old := by
    rw [Directory.rewrite_other _ _ (Nat.ne_of_lt old)]
    exact Function.update_of_ne (Nat.ne_of_lt old) _ _

theorem written_names (pid : Pid) (named : d.Names lock other) (apart : lock ≠ tmpname) :
    ((d.make tmpname).rewrite d.fresh (pidBytes pid)).Names lock other := by
  have staged := written_staged d tmpname lock pid
  obtain ⟨file,found,content⟩ := named
  refine ⟨file,(d.make_other apart).trans found,?_⟩
  rw [staged.files file (d.allocated lock file found)]
  exact content

section
variable {base : Directory} (staged : Staged d base tmpname lock pid)
include staged

theorem Staged.removed (apart : lock ≠ tmpname) :
    Staged d (base.remove lock) tmpname lock pid where
  placed := (base.remove_other apart.symm).trans staged.placed
  content := staged.content
  names other first second := (base.remove_other second).trans (staged.names other first second)
  files := staged.files

theorem Staged.beside (absent : d.names tmpname = none) : d.Beside (base.remove tmpname) lock where
  names other apart := by
    by_cases same : other = tmpname
    · rw [same,absent]
      exact base.remove_self tmpname
    · rw [base.remove_other same]
      exact staged.names other same apart
  files := staged.files

theorem Staged.linked (apart : lock ≠ tmpname) :
    ((base.link tmpname lock).remove tmpname).Names lock pid := by
  refine ⟨d.fresh,?_,staged.content⟩
  rw [Directory.remove_other _ apart,Directory.link_new]
  exact staged.placed

theorem Staged.link (apart : lock ≠ tmpname) :
    Staged d (base.link tmpname lock) tmpname lock pid where
  placed := (base.link_other _ apart.symm).trans staged.placed
  content := staged.content
  names other first second := (base.link_other _ second).trans (staged.names other first second)
  files := staged.files

end

section
variable {conf : LockConfig} {device : Option Path}

/-- The end of an attempt whose link() has succeeded. -/
theorem lone_createUucpLockfile_links {base : Directory} (absent : d.names (uucpTmpFilename conf pid) = none)
    (apart : getUucpLockDeviceFile conf device ≠ uucpTmpFilename conf pid) (valid : 1 ≤ pid.toInt)
    (lives : alive pid = true)
    (staged : Staged d base (uucpTmpFilename conf pid) (getUucpLockDeviceFile conf device) pid)
    (links : lone alive (linkLockfile (uucpTmpFilename conf pid) (getUucpLockDeviceFile conf device))
      ((d.make (uucpTmpFilename conf pid)).rewrite d.fresh (pidBytes pid)) =
        (.ok (),base.link (uucpTmpFilename conf pid) (getUucpLockDeviceFile conf device))) :
    ∃ after, lone alive (createUucpLockfile conf device pid) d =
        (some (getUucpLockDeviceFile conf device),after) ∧
      after.Names (getUucpLockDeviceFile conf device) pid ∧
        d.Beside after (getUucpLockDeviceFile conf device) := by
  have linked := staged.link apart
  have named := staged.linked apart
  refine ⟨_,?_,named,linked.beside absent⟩
  refine (lone_bind (lone_writePidfile absent)).trans ?_
  rw [if_neg (by decide)]
  refine (lone_bind links).trans ?_
  refine (lone_invoke (faultless_unlink linked.placed)).trans ?_
  refine (lone_bind (lone_verifyDeviceLockState_living named valid lives)).trans ?_
  dsimp only
  rw [if_pos ⟨rfl,rfl⟩]
  rfl

theorem lone_createUucpLockfile_held (absent : d.names (uucpTmpFilename conf pid) = none)
    (apart : getUucpLockDeviceFile conf device ≠ uucpTmpFilename conf pid)
    (named : d.Names (getUucpLockDeviceFile conf device) other) (valid : 1 ≤ other.toInt)
    (lives : alive other = true) :
    ∃ after, lone alive (createUucpLockfile conf device pid) d = (none,after) ∧
      after.Names (getUucpLockDeviceFile conf device) other ∧
        d.Beside after (getUucpLockDeviceFile conf device) := by
  have staged := written_staged d (uucpTmpFilename conf pid) (getUucpLockDeviceFile conf device) pid
  have there := written_names pid named apart
  refine ⟨_,?_,there.remove apart,staged.beside absent⟩
  refine (lone_bind (lone_writePidfile absent)).trans ?_
  rw [if_neg (by decide)]
  refine (lone_bind (lone_linkLockfile_held staged.placed there valid lives)).trans ?_
  exact lone_invoke (faultless_unlink staged.placed)

end

theorem Stands.beside {owner : Option Pid} (stands : Stands d path owner)
    (beside : d.Beside after lock) (apart : path ≠ lock) : Stands after path owner := by
  have same := beside.names path apart
  cases owner with
  | none => exact same.trans stands
  | some pid =>
    obtain ⟨⟨file,found,content⟩,valid⟩ := stands
    refine ⟨⟨file,same.trans found,?_⟩,valid⟩
    rw [beside.files file (d.allocated path file found)]
    exact content

end

namespace LockTable
variable {conf : LockConfig} {t : LockTable} {w : World} {after : Directory} {lock : Path}

theorem Describes.assign (describes : t.Describes conf w) (separate : Separate conf lock)
    (beside : w.directory.Beside after lock) {owner : Option Pid} (stands : Stands after lock owner) :
    (t.assign lock owner).Describes conf {w with directory := after} where
  alive := describes.alive
  cleared pid := (beside.names _ (separate pid)).trans (describes.cleared pid)
  stands other apart := by
    by_cases same : other = lock
    · subst same
      have now : (t.assign other owner).owner other = owner := Function.update_self ..
      rw [now]
      exact stands
    · have still : (t.assign lock owner).owner other = t.owner other := Function.update_of_ne same _ _
      rw [still]
      exact (describes.stands other apart).beside beside same

theorem assign_same (t : LockTable) (lock : Path) : t.assign lock (t.owner lock) = t := by
  simp [assign]

theorem Describes.created (describes : t.Describes conf w) {pid : ProcessPid} {device : Option Path}
    (separate : Separate conf (getUucpLockDeviceFile conf device)) (lives : t.alive pid = true) :
    w.replies conf (.create pid device) = t.replies conf (.create pid device) ∧
      (t.step conf (.create pid device)).Describes conf (w.step conf (.create pid device)) := by
  obtain ⟨pid,valid⟩ := pid
  obtain ⟨d,alive⟩ := w
  obtain rfl : alive = t.alive := describes.alive
  have absent := describes.cleared pid
  have apart := (separate pid).symm
  have staged := written_staged d (uucpTmpFilename conf pid) (getUucpLockDeviceFile conf device) pid
  have stands := describes.stands _ separate
  simp only [World.replies,World.step,World.call,replies,step,lives,true_and,if_true]
  cases owned : t.owner (getUucpLockDeviceFile conf device) with
  | none =>
    rw [owned] at stands
    have free : t.taken (getUucpLockDeviceFile conf device) = false := by simp [taken,owned]
    obtain ⟨after,runs,named,beside⟩ := lone_createUucpLockfile_links absent apart valid lives staged
      (lone_linkLockfile_free staged.placed ((d.make_other apart).trans stands))
    rw [runs,free]
    exact ⟨rfl,describes.assign separate beside ⟨named,valid⟩⟩
  | some other =>
    rw [owned] at stands
    obtain ⟨named,known⟩ := stands
    cases runs : t.alive other with
    | false =>
      have free : t.taken (getUucpLockDeviceFile conf device) = false := by simp [taken,owned,runs]
      have there := written_names pid named apart
      obtain ⟨after,takes,now,beside⟩ := lone_createUucpLockfile_links absent apart valid lives
        (staged.removed apart) (lone_linkLockfile_stale staged.placed apart there known runs)
      rw [takes,free]
      exact ⟨rfl,describes.assign separate beside ⟨now,valid⟩⟩
    | true =>
      have held : t.taken (getUucpLockDeviceFile conf device) = true := by simp [taken,owned,runs]
      obtain ⟨after,fails,there,beside⟩ := lone_createUucpLockfile_held absent apart named known runs
      rw [fails,held]
      refine ⟨rfl,?_⟩
      have same := describes.assign separate beside (show Stands after _ (some other) from ⟨there,known⟩)
      rw [← owned,assign_same] at same
      exact same

theorem Describes.unlocked (describes : t.Describes conf w) {pid : ProcessPid} {device : Option Path}
    (separate : Separate conf (getUucpLockDeviceFile conf device)) (lives : t.alive pid = true) :
    w.replies conf (.unlock pid device) = t.replies conf (.unlock pid device) ∧
      (t.step conf (.unlock pid device)).Describes conf (w.step conf (.unlock pid device)) := by
  obtain ⟨d,alive⟩ := w
  obtain rfl : alive = t.alive := describes.alive
  have stands := describes.stands _ separate
  simp only [World.replies,World.step,World.call,replies,step,lives,if_true]
  cases owned : t.owner (getUucpLockDeviceFile conf device) with
  | none =>
    rw [owned] at stands
    have fails : lone t.alive (unlockUucpLockfile conf device) d = (-1,d) := by
      have absent : faultless t.alive (.unlink (getUucpLockDeviceFile conf device)) d (.error .ENOENT) d := by
        simp only [faultless,perform,Circumstance.attempt,show d.names _ = none from stands]
        rfl
      exact lone_invoke absent
    rw [fails]
    refine ⟨rfl,?_⟩
    rw [← owned,assign_same]
    exact describes
  | some other =>
    rw [owned] at stands
    obtain ⟨⟨file,found,_⟩,_⟩ := stands
    have removes : lone t.alive (unlockUucpLockfile conf device) d =
        (0,d.remove (getUucpLockDeviceFile conf device)) := lone_invoke (faultless_unlink found)
    rw [removes]
    refine ⟨rfl,describes.assign separate ⟨fun path apart => d.remove_other apart,fun _ _ => rfl⟩ ?_⟩
    exact d.remove_self _

theorem Describes.step (describes : t.Describes conf w) {request : LockRequest}
    (allowed : request.Allowed conf) :
    w.replies conf request = t.replies conf request ∧
      (t.step conf request).Describes conf (w.step conf request) := by
  have same := describes.alive
  cases request with
  | start pid | exit pid =>
    refine ⟨rfl,?_,describes.cleared,describes.stands⟩
    simp [World.step,LockTable.step,same]
  | create pid device =>
    cases lives : t.alive pid with
    | false => simpa [World.replies,World.step,replies,LockTable.step,same,lives] using describes
    | true => exact describes.created allowed lives
  | unlock pid device =>
    cases lives : t.alive pid with
    | false => simpa [World.replies,World.step,replies,LockTable.step,same,lives] using describes
    | true => exact describes.unlocked allowed lives

end LockTable

/-- Whatever processes come, go, lock and unlock in whatever order, every function returns what
the table says, and afterwards the directory holds its locks and nothing else. -/
theorem locks_refined (conf : LockConfig) (w : World) (t : LockTable) (requests : List LockRequest)
    (describes : t.Describes conf w) (allowed : ∀ request ∈ requests, request.Allowed conf) :
    emits (World.step conf) (World.replies conf) w requests =
      emits (LockTable.step conf) (LockTable.replies conf) t requests ∧
        (run (LockTable.step conf) t requests).Describes conf (run (World.step conf) w requests) := by
  have follows : ∀ w t request, LockTable.Describes conf t w → request.Allowed conf →
      w.replies conf request = t.replies conf request ∧
        (t.step conf request).Describes conf (w.step conf request) :=
    fun w t request describes allowed => describes.step allowed
  have same := emits_simulates (fun w t => LockTable.Describes conf t w) id follows describes allowed
  have still := run_simulates (fun w t => LockTable.Describes conf t w) id
    (fun w t request describes allowed => (follows w t request describes allowed).2) describes allowed
  rw [List.map_id] at same still
  exact ⟨same,still⟩

/-- Process 5 dies with the lock that process 6 has waited for. -/
theorem locks_refined_stale : let conf : LockConfig := ⟨none,none⟩
    let device : Option Path := some "/dev/ttyS0".toList
    let lock : Path := "/var/lock/LCK..ttyS0".toList
    let first : ProcessPid := ⟨5,by decide⟩
    let second : ProcessPid := ⟨6,by decide⟩
    emits (World.step conf) (World.replies conf) ⟨Directory.empty,fun _ => false⟩
      [.start first,.create first device,.start second,.create second device,.exit first,
        .create second device,.unlock second device] =
      [.created (some lock),.created none,.created (some lock),.unlocked 0] := by
  intro conf device lock first second
  let requests : List LockRequest := [.start first,.create first device,.start second,
    .create second device,.exit first,.create second device,.unlock second device]
  let w : World := ⟨Directory.empty,fun _ => false⟩
  let t : LockTable := ⟨fun _ => none,fun _ => false⟩
  have describes : t.Describes conf w := ⟨rfl,fun _ => rfl,fun _ _ => rfl⟩
  have apart : Separate conf (getUucpLockDeviceFile conf device) := separate_of_not_prefix (by decide)
  have allowed : ∀ request ∈ requests, request.Allowed conf := by
    simp [requests,LockRequest.Allowed,apart]
  have same := (locks_refined conf w t requests describes allowed).1
  rw [same]
  decide +kernel

end SerialIp
