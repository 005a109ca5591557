import Mathlib.Logic.Function.Basic
import SerialIp.Library.Program

/-! The lock directory of `pidfile_handle.c`: the names of lock files and
temporary files, the files they stand for, and the calls that reach them. -/
namespace SerialIp
open Library

abbrev Path := List Char
abbrev Pid := BitVec 32

def UUCPLOCK_DIR : Path := "/var/lock".toList
def UUCPLOCK_TMPL : Path := "LCK..%s".toList

structure LockConfig where
  lockdir : Option Path
  locktemplate : Option Path

def getUucpTemplatePath (conf : LockConfig) : Path :=
  conf.lockdir.getD UUCPLOCK_DIR ++ '/' :: conf.locktemplate.getD UUCPLOCK_TMPL

/-- `sprintf` of one string argument, for templates with `%s` and `%%`. -/
def sprintf : Path → Path → Path
  | '%' :: 's' :: template,name => name ++ sprintf template name
  | '%' :: '%' :: template,name => '%' :: sprintf template name
  | c::template,name => c::sprintf template name
  | [],_ => []

def lastName (device : Path) : Path := (device.reverse.takeWhile (· ≠ '/')).reverse

def getUucpLockDeviceFile (conf : LockConfig) (device : Option Path) : Path :=
  match device with
  | some device => sprintf (getUucpTemplatePath conf) (lastName device)
  | none => sprintf (getUucpTemplatePath conf) "null".toList

def decimal (n : Int) : Path :=
  if n < 0 then '-' :: Nat.toDigits 10 n.natAbs else Nat.toDigits 10 n.natAbs

def uucpTmpFilename (conf : LockConfig) (pid : Pid) : Path :=
  sprintf (getUucpTemplatePath conf) "tmp.".toList ++ decimal pid.toInt

theorem decimal_injective : Function.Injective decimal := by
  intro first second same
  have digits (n : Nat) : '-' ∉ Nat.toDigits 10 n :=
    fun sign => absurd (Nat.isDigit_of_mem_toDigits (by decide) (by decide) sign) (by decide)
  have absolute {m n : Nat} (equal : Nat.toDigits 10 m = Nat.toDigits 10 n) : m = n := by
    rw [← Nat.ofDigitChars_ten_toDigits (n := m),equal,Nat.ofDigitChars_ten_toDigits]
  unfold decimal at same
  split at same <;> split at same
  · have := absolute (List.cons.inj same).2
    omega
  · exact absurd (same ▸ List.mem_cons_self) (digits _)
  · exact absurd (same ▸ List.mem_cons_self) (digits _)
  · have := absolute same
    omega

theorem uucpTmpFilename_injective (conf : LockConfig) :
    Function.Injective (uucpTmpFilename conf) := by
  intro first second same
  exact BitVec.eq_of_toInt_eq (decimal_injective (List.append_cancel_left same))

def Separate (conf : LockConfig) (path : Path) : Prop :=
  ∀ pid, uucpTmpFilename conf pid ≠ path

theorem separate_of_not_prefix {conf : LockConfig} {path : Path}
    (begins : ¬sprintf (getUucpTemplatePath conf) "tmp.".toList <+: path) : Separate conf path := by
  intro pid same
  subst same
  exact begins (List.prefix_append _ _)

def sizeofPid : Nat := 4

def pidBytes (pid : Pid) : List UInt8 :=
  [⟨pid.extractLsb' 0 8⟩,⟨pid.extractLsb' 8 8⟩,⟨pid.extractLsb' 16 8⟩,⟨pid.extractLsb' 24 8⟩]

def pidOfBytes? : List UInt8 → Option Pid
  | [a,b,c,d] => some (d.toBitVec ++ c.toBitVec ++ b.toBitVec ++ a.toBitVec)
  | _ => none

theorem pidOfBytes?_pidBytes (pid : Pid) : pidOfBytes? (pidBytes pid) = some pid := by
  change some (pid.extractLsb' 24 8 ++ pid.extractLsb' 16 8 ++ pid.extractLsb' 8 8 ++
    pid.extractLsb' 0 8) = some pid
  rw [BitVec.extractLsb'_append_extractLsb'_eq_extractLsb' (show 24 = 16 + 8 from rfl),
    BitVec.extractLsb'_append_extractLsb'_eq_extractLsb' (show 16 = 8 + 8 from rfl),
    BitVec.extractLsb'_append_extractLsb'_eq_extractLsb' (show 8 = 0 + 8 from rfl)]
  exact congrArg some BitVec.extractLsb'_eq_self

/-- Which file each name stands for, and what is in it. A file may have several
names, or none any more. -/
structure Directory where
  names : Path → Option Nat
  files : Nat → List UInt8
  fresh : Nat
  allocated : ∀ path file, names path = some file → file < fresh

namespace Directory

def empty : Directory where
  names _ := none
  files _ := []
  fresh := 0
  allocated _ _ absent := nomatch absent

theorem allocated_update {names : Path → Option Nat} {limit : Nat} (path : Path) (value : Option Nat)
    (inside : ∀ file, value = some file → file < limit)
    (bounded : ∀ other file, names other = some file → file < limit) :
    ∀ other file, Function.update names path value other = some file → file < limit :=
  (Function.forall_update_iff names fun _ value => ∀ file, value = some file → file < limit).mpr
    ⟨inside,fun other _ => bounded other⟩

def make (d : Directory) (path : Path) : Directory where
  names := Function.update d.names path (some d.fresh)
  files := Function.update d.files d.fresh []
  fresh := d.fresh + 1
  allocated := by
    refine allocated_update path _ ?_ ?_
    · intro file new
      rw [← Option.some.inj new]
      exact Nat.lt_succ_self _
    · exact fun other file found => Nat.lt_succ_of_lt (d.allocated other file found)

def rewrite (d : Directory) (file : Nat) (bytes : List UInt8) : Directory where
  names := d.names
  files := Function.update d.files file bytes
  fresh := d.fresh
  allocated := d.allocated

def link (d : Directory) (oldPath newPath : Path) : Directory where
  names := Function.update d.names newPath (d.names oldPath)
  files := d.files
  fresh := d.fresh
  allocated := allocated_update newPath _ (d.allocated oldPath) d.allocated

def remove (d : Directory) (path : Path) : Directory where
  names := Function.update d.names path none
  files := d.files
  fresh := d.fresh
  allocated := allocated_update path none (fun _ absent => nomatch absent) d.allocated

@[simp] theorem make_new (d : Directory) (path : Path) :
    (d.make path).names path = some d.fresh := Function.update_self ..

theorem make_other (d : Directory) {path other : Path} (different : other ≠ path) :
    (d.make path).names other = d.names other := Function.update_of_ne different _ _

@[simp] theorem make_empty (d : Directory) (path : Path) : (d.make path).files d.fresh = [] :=
  Function.update_self ..

theorem make_content (d : Directory) (path : Path) {other : Path} {file : Nat}
    (found : d.names other = some file) : (d.make path).files file = d.files file :=
  Function.update_of_ne (Nat.ne_of_lt (d.allocated _ _ found)) _ _

@[simp] theorem rewrite_self (d : Directory) (file : Nat) (bytes : List UInt8) :
    (d.rewrite file bytes).files file = bytes := Function.update_self ..

theorem rewrite_other (d : Directory) {file other : Nat} (bytes : List UInt8)
    (different : other ≠ file) : (d.rewrite file bytes).files other = d.files other :=
  Function.update_of_ne different _ _

@[simp] theorem link_new (d : Directory) (oldPath newPath : Path) :
    (d.link oldPath newPath).names newPath = d.names oldPath := Function.update_self ..

theorem link_other (d : Directory) (oldPath : Path) {newPath other : Path}
    (different : other ≠ newPath) : (d.link oldPath newPath).names other = d.names other :=
  Function.update_of_ne different _ _

@[simp] theorem remove_self (d : Directory) (path : Path) : (d.remove path).names path = none :=
  Function.update_self ..

theorem remove_other (d : Directory) {path other : Path} (different : other ≠ path) :
    (d.remove path).names other = d.names other := Function.update_of_ne different _ _

/-- The path stands for a file that holds exactly this pid. -/
def Names (d : Directory) (path : Path) (pid : Pid) : Prop :=
  ∃ file, d.names path = some file ∧ d.files file = pidBytes pid

def owner? (d : Directory) (path : Path) : Option Pid :=
  (d.names path).bind fun file => pidOfBytes? (d.files file)

theorem Names.owner {d : Directory} {path : Path} {pid : Pid} (named : d.Names path pid) :
    d.owner? path = some pid := by
  obtain ⟨file,found,content⟩ := named
  unfold owner?
  rw [found,Option.bind_some,content]
  exact pidOfBytes?_pidBytes pid

theorem Names.unique {d : Directory} {path : Path} {first second : Pid}
    (one : d.Names path first) (other : d.Names path second) : first = second :=
  Option.some.inj (one.owner.symm.trans other.owner)

theorem Names.remove {d : Directory} {path other : Path} {pid : Pid} (named : d.Names other pid)
    (different : other ≠ path) : (d.remove path).Names other pid := by
  obtain ⟨file,found,content⟩ := named
  exact ⟨file,(d.remove_other different).trans found,content⟩

end Directory

def overwrite (bytes old : List UInt8) (count : Nat) : List UInt8 :=
  bytes.take count ++ old.drop (min bytes.length count)

inductive Errno where
  | EEXIST
  | ENOENT
  | ESRCH
  | other (code : Nat)
deriving DecidableEq

/-- A descriptor is the file it was opened on; `stack` is the value of a local
variable nothing was assigned to. -/
inductive Call where
  | openCreat (pathname : Path)
  | openRdonly (pathname : Path)
  | fstat (fd : Nat)
  | read (fd nbytes : Nat)
  | write (fd : Nat) (bytes : List UInt8)
  | link (oldPath newPath : Path)
  | unlink (pathname : Path)
  | kill (pid : Pid)
  | stack

def Call.Result : Call → Type
  | .openCreat _ | .openRdonly _ | .fstat _ | .write _ _ => Except Errno Nat
  | .read _ _ => Except Errno (List UInt8)
  | .link _ _ | .unlink _ | .kill _ => Except Errno Unit
  | .stack => Pid

/-- What the system decides in a call: a failure of its own, how many bytes are
transferred, what the stack holds. -/
structure Circumstance where
  fault : Option Nat
  count : Nat
  stack : Pid

def Circumstance.attempt {α : Type} (e : Circumstance) (d : Directory)
    (call : Except Errno α × Directory) : Except Errno α × Directory :=
  match e.fault with
  | some code => (.error (.other code),d)
  | none => call

def perform (alive : Pid → Bool) (e : Circumstance) (d : Directory) :
    (c : Call) → c.Result × Directory
  | .openCreat pathname => e.attempt d (match d.names pathname with
    | some file => (.ok file,d)
    | none => (.ok d.fresh,d.make pathname))
  | .openRdonly pathname => e.attempt d (match d.names pathname with
    | some file => (.ok file,d)
    | none => (.error .ENOENT,d))
  | .fstat fd => e.attempt d (.ok (d.files fd).length,d)
  | .read fd nbytes => e.attempt d (.ok ((d.files fd).take (min nbytes e.count)),d)
  | .write fd bytes => e.attempt d (.ok (min bytes.length e.count),
      d.rewrite fd (overwrite bytes (d.files fd) e.count))
  | .link oldPath newPath => e.attempt d (match d.names oldPath,d.names newPath with
    | none,_ => (.error .ENOENT,d)
    | some _,some _ => (.error .EEXIST,d)
    | some _,none => (.ok (),d.link oldPath newPath))
  | .unlink pathname => e.attempt d (match d.names pathname with
    | none => (.error .ENOENT,d)
    | some _ => (.ok (),d.remove pathname))
  | .kill pid => if alive pid then e.attempt d (.ok (),d) else (.error .ESRCH,d)
  | .stack => (e.stack,d)

theorem Circumstance.attempt_cases {α : Type} {e : Circumstance} {d after : Directory}
    {call : Except Errno α × Directory} {result : Except Errno α}
    (calls : e.attempt d call = (result,after)) :
    (∃ errno, result = .error errno ∧ after = d) ∨ call = (result,after) := by
  unfold attempt at calls
  split at calls
  · obtain ⟨rfl,rfl⟩ := Prod.mk.inj calls
    exact Or.inl ⟨_,rfl,rfl⟩
  · exact Or.inr calls

section
variable {alive : Pid → Bool} {e : Circumstance} {d after : Directory}

theorem perform_openCreat {path : Path} {result : Except Errno Nat}
    (calls : perform alive e d (.openCreat path) = (result,after)) :
    (∃ errno, result = .error errno ∧ after = d) ∨
      (∃ file, result = .ok file ∧ d.names path = some file ∧ after = d) ∨
      result = .ok d.fresh ∧ d.names path = none ∧ after = d.make path := by
  rcases Circumstance.attempt_cases calls with failed | opened
  · exact Or.inl failed
  · split at opened <;> obtain ⟨rfl,rfl⟩ := Prod.mk.inj opened
    · exact Or.inr (Or.inl ⟨_,rfl,‹_›,rfl⟩)
    · exact Or.inr (Or.inr ⟨rfl,‹_›,rfl⟩)

theorem perform_write {fd : Nat} {bytes : List UInt8} {result : Except Errno Nat}
    (calls : perform alive e d (.write fd bytes) = (result,after)) :
    (∃ errno, result = .error errno ∧ after = d) ∨
      ∃ count, result = .ok (min bytes.length count) ∧
        after = d.rewrite fd (overwrite bytes (d.files fd) count) := by
  rcases Circumstance.attempt_cases calls with failed | written
  · exact Or.inl failed
  · obtain ⟨rfl,rfl⟩ := Prod.mk.inj written
    exact Or.inr ⟨_,rfl,rfl⟩

theorem perform_link {oldPath newPath : Path} {result : Except Errno Unit}
    (calls : perform alive e d (.link oldPath newPath) = (result,after)) :
    (∃ errno, result = .error errno ∧ after = d) ∨
      result = .ok () ∧ d.names newPath = none ∧ after = d.link oldPath newPath := by
  rcases Circumstance.attempt_cases calls with failed | linked
  · exact Or.inl failed
  · split at linked <;> obtain ⟨rfl,rfl⟩ := Prod.mk.inj linked
    · exact Or.inl ⟨_,rfl,rfl⟩
    · exact Or.inl ⟨_,rfl,rfl⟩
    · exact Or.inr ⟨rfl,‹_›,rfl⟩

theorem perform_unlink {path : Path} {result : Except Errno Unit}
    (calls : perform alive e d (.unlink path) = (result,after)) :
    after = d ∨ after = d.remove path := by
  rcases Circumstance.attempt_cases calls with ⟨_,_,rfl⟩ | removed
  · exact Or.inl rfl
  · split at removed <;> obtain ⟨rfl,rfl⟩ := Prod.mk.inj removed
    · exact Or.inl rfl
    · exact Or.inr rfl

end

def Call.Reads : Call → Prop
  | .openRdonly _ | .fstat _ | .read _ _ | .kill _ | .stack => True
  | .openCreat _ | .write _ _ | .link _ _ | .unlink _ => False

theorem perform_reads {alive : Pid → Bool} {e : Circumstance} {d after : Directory} {c : Call}
    {result : c.Result} (reads : c.Reads) (calls : perform alive e d c = (result,after)) :
    after = d := by
  have quiet {α : Type} {result : Except Errno α} {call : Except Errno α × Directory}
      (calls : e.attempt d call = (result,after)) (same : call.2 = d) : after = d := by
    rcases Circumstance.attempt_cases calls with ⟨_,_,rfl⟩ | rfl
    · rfl
    · exact same
  cases c with
  | openRdonly path => exact quiet calls (by split <;> rfl)
  | fstat fd => exact quiet calls rfl
  | read fd nbytes => exact quiet calls rfl
  | kill pid =>
    change (if alive pid then e.attempt d (.ok (),d) else (.error .ESRCH,d)) = (result,after) at calls
    split at calls
    · exact quiet calls rfl
    · exact (Prod.mk.inj calls).2.symm
  | stack => exact (Prod.mk.inj calls).2.symm
  | openCreat _ | write _ _ | link _ _ | unlink _ => exact reads.elim

end SerialIp
