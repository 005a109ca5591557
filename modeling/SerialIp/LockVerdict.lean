import SerialIp.PidfileHandle

/-! How verify_device_lock_state comes to its verdict on a lock file, when no other
process changes the lock directory meanwhile. -/
namespace SerialIp
open Library Library.Program

/-- The calls of a process that has the lock directory for itself. -/
def alone (alive : Pid → Bool) (c : Call) (d : Directory) (result : c.Result) (after : Directory) :
    Prop :=
  ∃ e, perform alive e d c = (result,after)

/-- The same, with an unlink() that cannot fail. -/
def unlinking (alive : Pid → Bool) (c : Call) (d : Directory) (result : c.Result)
    (after : Directory) : Prop :=
  ∃ e, (∀ path, c = .unlink path → e.fault = none) ∧ perform alive e d c = (result,after)

theorem unlinking_alone {alive : Pid → Bool} {c : Call} {d after : Directory} {answer : c.Result}
    (acts : unlinking alive c d answer after) : alone alive c d answer after := by
  obtain ⟨e,_,calls⟩ := acts
  exact ⟨e,calls⟩

abbrev Trace := List (Exchange Call Call.Result)

theorem pidBytes_append (a b c d : BitVec 8) :
    pidBytes (d ++ c ++ b ++ a) = [⟨a⟩,⟨b⟩,⟨c⟩,⟨d⟩] := by
  have low {n : Nat} (x : BitVec n) (y : BitVec 8) : (x ++ y).extractLsb' 0 8 = y :=
    (BitVec.extractLsb'_append_eq_of_add_le (by decide)).trans BitVec.extractLsb'_eq_self
  have high {n : Nat} (x : BitVec n) (y : BitVec 8) (k : Nat) :
      (x ++ y).extractLsb' (k+8) 8 = x.extractLsb' k 8 := by
    rw [BitVec.extractLsb'_append_eq_of_le (by omega),Nat.add_sub_cancel]
  have first : (d ++ c ++ b ++ a).extractLsb' 0 8 = a := low _ a
  have second : (d ++ c ++ b ++ a).extractLsb' 8 8 = b := (high _ a 0).trans (low _ b)
  have third : (d ++ c ++ b ++ a).extractLsb' 16 8 = c :=
    (high _ a 8).trans ((high _ b 0).trans (low d c))
  have fourth : (d ++ c ++ b ++ a).extractLsb' 24 8 = d :=
    (high _ a 16).trans ((high _ b 8).trans ((high d c 0).trans BitVec.extractLsb'_eq_self))
  change [UInt8.ofBitVec ((d ++ c ++ b ++ a).extractLsb' 0 8),
    UInt8.ofBitVec ((d ++ c ++ b ++ a).extractLsb' 8 8),
    UInt8.ofBitVec ((d ++ c ++ b ++ a).extractLsb' 16 8),
    UInt8.ofBitVec ((d ++ c ++ b ++ a).extractLsb' 24 8)] = _
  rw [first,second,third,fourth]

theorem pidBytes_of_pidOfBytes? {bytes : List UInt8} {pid : Pid}
    (read : pidOfBytes? bytes = some pid) : pidBytes pid = bytes := by
  match bytes,read with
  | [a,b,c,d],read =>
    have same : d.toBitVec ++ c.toBitVec ++ b.toBitVec ++ a.toBitVec = pid := Option.some.inj read
    rw [← same]
    exact pidBytes_append a.toBitVec b.toBitVec c.toBitVec d.toBitVec

theorem pidOfBytes?_none {bytes : List UInt8} (unread : pidOfBytes? bytes = none) :
    bytes.length ≠ sizeofPid := by
  intro length
  match bytes,unread with
  | [],_ | [_],_ | [_,_],_ | [_,_,_],_ => simp [sizeofPid] at length
  | _::_::_::_::_::_,_ => simp [sizeofPid] at length

/-- The end of the check: what is asked about the pid, and the status it leads to. -/
inductive Verdict (alive : Pid → Bool) (pid : Pid) : Trace → Int → Prop
  | invalid (small : pid.toInt < 1) : Verdict alive pid [] (-1)
  | dead (valid : 1 ≤ pid.toInt) (gone : alive pid = false) :
    Verdict alive pid [⟨.kill pid,.error .ESRCH⟩] 1
  | living (valid : 1 ≤ pid.toInt) (runs : alive pid = true) (answer : Except Errno Unit)
    (known : answer ≠ .error .ESRCH) : Verdict alive pid [⟨.kill pid,answer⟩] 0

/-- The whole check of the file at `path`, one case for each exit. -/
inductive Verification (alive : Pid → Bool) (d : Directory) (path : Path) :
    Trace → Int × Pid → Prop
  | unopened (errno : Errno) : Verification alive d path [⟨.openRdonly path,.error errno⟩] (-1,0)
  | unsized (file : Nat) (errno : Errno) (found : d.names path = some file) :
    Verification alive d path [⟨.openRdonly path,.ok file⟩,⟨.fstat file,.error errno⟩] (-1,0)
  | unread (file : Nat) (answer : Except Errno (List UInt8)) (found : d.names path = some file)
    (binary : (d.files file).length = sizeofPid) (partly : ∀ bytes, answer = .ok bytes →
      bytes.length < sizeofPid) :
    Verification alive d path [⟨.openRdonly path,.ok file⟩,⟨.fstat file,.ok sizeofPid⟩,
      ⟨.read file sizeofPid,answer⟩] (-1,0)
  | binary (file : Nat) (pid : Pid) (checks : Trace) (status : Int)
    (found : d.names path = some file) (content : d.files file = pidBytes pid)
    (verdict : Verdict alive pid checks status) :
    Verification alive d path (⟨.openRdonly path,.ok file⟩::⟨.fstat file,.ok sizeofPid⟩::
      ⟨.read file sizeofPid,.ok (pidBytes pid)⟩::checks) (status,pid)
  | foreign (file size : Nat) (pid : Pid) (checks : Trace) (status : Int)
    (found : d.names path = some file) (length : (d.files file).length = size)
    (other : size ≠ sizeofPid) (verdict : Verdict alive pid checks status) :
    Verification alive d path (⟨.openRdonly path,.ok file⟩::⟨.fstat file,.ok size⟩::
      ⟨.stack,pid⟩::checks) (status,pid)

section
variable {alive : Pid → Bool} {d after : Directory} {path : Path} {trace : Trace}
  {result : Int × Pid}

theorem alone_reads {c : Call} {answer : c.Result} (reads : c.Reads)
    (acts : alone alive c d answer after) : after = d := by
  obtain ⟨e,calls⟩ := acts
  exact perform_reads reads calls

theorem alone_openRdonly {answer : Except Errno Nat}
    (acts : alone alive (.openRdonly path) d answer after) :
    (∃ errno, answer = .error errno) ∨ ∃ file, answer = .ok file ∧ d.names path = some file := by
  obtain ⟨e,calls⟩ := acts
  rcases Circumstance.attempt_cases calls with ⟨errno,failed,_⟩ | opened
  · exact Or.inl ⟨errno,failed⟩
  · split at opened <;> obtain ⟨rfl,_⟩ := Prod.mk.inj opened
    · exact Or.inr ⟨_,rfl,‹_›⟩
    · exact Or.inl ⟨_,rfl⟩

theorem alone_fstat {file : Nat} {answer : Except Errno Nat}
    (acts : alone alive (.fstat file) d answer after) :
    (∃ errno, answer = .error errno) ∨ answer = .ok (d.files file).length := by
  obtain ⟨e,calls⟩ := acts
  rcases Circumstance.attempt_cases calls with ⟨errno,failed,_⟩ | sized
  · exact Or.inl ⟨errno,failed⟩
  · exact Or.inr (Prod.mk.inj sized).1.symm

theorem alone_read {file nbytes : Nat} {answer : Except Errno (List UInt8)}
    (acts : alone alive (.read file nbytes) d answer after) :
    (∃ errno, answer = .error errno) ∨
      ∃ count, answer = .ok ((d.files file).take (min nbytes count)) := by
  obtain ⟨e,calls⟩ := acts
  rcases Circumstance.attempt_cases calls with ⟨errno,failed,_⟩ | taken
  · exact Or.inl ⟨errno,failed⟩
  · exact Or.inr ⟨e.count,(Prod.mk.inj taken).1.symm⟩

theorem alone_kill {pid : Pid} {answer : Except Errno Unit}
    (acts : alone alive (.kill pid) d answer after) :
    if alive pid then answer ≠ .error .ESRCH else answer = .error .ESRCH := by
  obtain ⟨e,calls⟩ := acts
  change (if alive pid then e.attempt d (.ok (),d) else (.error .ESRCH,d)) = (answer,after) at calls
  split at calls
  · rename_i lives
    rw [if_pos lives]
    unfold Circumstance.attempt at calls
    split at calls
    · obtain ⟨rfl,_⟩ := Prod.mk.inj calls
      intro same
      cases same
    · obtain ⟨rfl,_⟩ := Prod.mk.inj calls
      intro same
      cases same
  · rename_i gone
    rw [if_neg gone]
    exact (Prod.mk.inj calls).1.symm

theorem checkPid_runs {pid : Pid} (runs : (checkPid pid).Runs (alone alive) trace d result after) :
    after = d ∧ result.2 = pid ∧ Verdict alive pid trace result.1 := by
  unfold checkPid at runs
  split at runs
  · rename_i small
    obtain ⟨rfl,rfl,rfl⟩ := runs
    exact ⟨rfl,rfl,.invalid small⟩
  · rename_i valid
    obtain ⟨answer,rest,mid,rfl,acts,onward⟩ := runs_invoke_bind.mp runs
    have same := alone_reads (c := .kill pid) trivial acts
    have told := alone_kill acts
    split at told
    · rename_i lives
      have status : rest = [] ∧ result = (0,pid) ∧ after = mid := by
        match answer,told,onward with
        | .ok (),_,onward => exact onward
        | .error .EEXIST,_,onward => exact onward
        | .error .ENOENT,_,onward => exact onward
        | .error (.other _),_,onward => exact onward
        | .error .ESRCH,known,_ => exact absurd rfl known
      obtain ⟨rfl,rfl,rfl⟩ := status
      exact ⟨same,rfl,.living (by omega) lives answer told⟩
    · rename_i gone
      subst answer
      obtain ⟨rfl,rfl,rfl⟩ := onward
      exact ⟨same,rfl,.dead (by omega) (Bool.eq_false_iff.mpr gone)⟩

theorem verifyDeviceLockState_runs
    (runs : (verifyDeviceLockState path).Runs (alone alive) trace d result after) :
    after = d ∧ Verification alive d path trace result := by
  obtain ⟨opened,rest,mid,rfl,acts,stat⟩ := runs_invoke_bind.mp runs
  obtain rfl := alone_reads (c := .openRdonly path) trivial acts
  obtain ⟨errno,rfl⟩ | ⟨file,rfl,found⟩ := alone_openRdonly acts
  · obtain ⟨rfl,rfl,rfl⟩ := stat
    exact ⟨rfl,.unopened errno⟩
  obtain ⟨sized,rest,mid,rfl,acts,body⟩ := runs_invoke_bind.mp stat
  obtain rfl := alone_reads (c := .fstat file) trivial acts
  obtain ⟨errno,rfl⟩ | rfl := alone_fstat acts
  · obtain ⟨rfl,rfl,rfl⟩ := body
    exact ⟨rfl,.unsized file errno found⟩
  dsimp only at body
  split at body
  · rename_i binary
    obtain ⟨taken,rest,mid,rfl,acts,check⟩ := runs_invoke_bind.mp body
    obtain rfl := alone_reads (c := .read file sizeofPid) trivial acts
    obtain ⟨errno,rfl⟩ | ⟨count,rfl⟩ := alone_read acts
    · obtain ⟨rfl,rfl,rfl⟩ := check
      rw [binary]
      exact ⟨rfl,.unread file _ found binary nofun⟩
    · generalize bytes : (mid.files file).take (min sizeofPid count) = taken at check
      have whole : taken.length = sizeofPid → taken = mid.files file := by
        intro length
        rw [← bytes] at length ⊢
        rw [List.length_take] at length
        exact List.take_of_length_le (by omega)
      dsimp only at check
      rw [binary]
      split at check
      · rename_i unread
        obtain ⟨rfl,rfl,rfl⟩ := check
        refine ⟨rfl,.unread file _ found binary ?_⟩
        intro got same
        have length : taken.length ≤ sizeofPid := by
          rw [← bytes,List.length_take]
          omega
        rw [← Except.ok.inj same]
        exact Nat.lt_of_le_of_ne length (pidOfBytes?_none unread)
      · rename_i pid got
        have content := pidBytes_of_pidOfBytes? got
        obtain ⟨same,told,verdict⟩ := checkPid_runs check
        obtain ⟨status,_⟩ := result
        subst told
        rw [← content]
        refine ⟨same,.binary file _ _ _ found ?_ verdict⟩
        rw [content]
        exact (whole (by rw [← content]; rfl)).symm
  · rename_i other
    obtain ⟨pid,rest,mid,rfl,acts,check⟩ := runs_invoke_bind.mp body
    obtain rfl := alone_reads (c := .stack) trivial acts
    obtain ⟨same,told,verdict⟩ := checkPid_runs check
    obtain ⟨status,_⟩ := result
    subst told
    exact ⟨same,.foreign file _ _ _ _ found rfl other verdict⟩

/-- A lock is stale only if its owner is dead, and held only if its owner lives; a file
that is no binary pid is neither. -/
structure SoundVerdict (alive : Pid → Bool) (d : Directory) (path : Path) (result : Int × Pid) :
    Prop where
  stale : result.1 = 1 → ∃ pid, d.Names path pid ∧ 1 ≤ pid.toInt ∧ alive pid = false
  held : result.1 = 0 → ∃ pid, d.Names path pid ∧ 1 ≤ pid.toInt ∧ alive pid = true
  foreign : ∀ file, d.names path = some file → (d.files file).length ≠ sizeofPid → result.1 = -1

theorem soundVerdict_error (pid : Pid) : SoundVerdict alive d path (-1,pid) :=
  ⟨fun stale => absurd stale (by decide : (-1 : Int) ≠ 1),
    fun held => absurd held (by decide : (-1 : Int) ≠ 0),fun _ _ _ => rfl⟩

/-- What the local variable held where it was looked at before it was assigned. -/
def stackValues (trace : Trace) : List Pid :=
  trace.filterMap fun
    | ⟨.stack,value⟩ => some value
    | _ => none

theorem Verdict.no_stack {pid : Pid} {checks : Trace} {status : Int}
    (verdict : Verdict alive pid checks status) : stackValues checks = [] := by
  cases verdict with
  | invalid small | dead valid gone | living valid runs answer known => rfl

theorem Verdict.status {pid : Pid} {checks : Trace} {status : Int}
    (verdict : Verdict alive pid checks status) :
    (status = 1 → 1 ≤ pid.toInt ∧ alive pid = false) ∧
      (status = 0 → 1 ≤ pid.toInt ∧ alive pid = true) ∧ (status = -1 ↔ pid.toInt < 1) := by
  cases verdict with
  | invalid small => exact ⟨fun one => by omega,fun zero => by omega,iff_of_true rfl small⟩
  | dead valid gone =>
    exact ⟨fun _ => ⟨valid,gone⟩,fun zero => by omega,iff_of_false (by decide) (by omega)⟩
  | living valid runs answer known =>
    exact ⟨fun one => by omega,fun _ => ⟨valid,runs⟩,iff_of_false (by decide) (by omega)⟩

theorem verification_sound_iff (verification : Verification alive d path trace result) :
    SoundVerdict alive d path result ↔ ∀ value ∈ stackValues trace, value.toInt < 1 := by
  cases verification with
  | unopened errno | unsized file errno found | unread file answer found binary partly =>
    exact iff_of_true (soundVerdict_error 0) (fun value member => absurd member List.not_mem_nil)
  | binary file pid checks status found content verdict =>
    obtain ⟨stale,held,_⟩ := verdict.status
    refine iff_of_true ⟨?_,?_,?_⟩ ?_
    · exact fun one => ⟨pid,⟨file,found,content⟩,stale one⟩
    · exact fun zero => ⟨pid,⟨file,found,content⟩,held zero⟩
    · intro other named foreign
      rw [found] at named
      rw [← Option.some.inj named,content] at foreign
      exact absurd rfl foreign
    · change ∀ value ∈ stackValues checks, value.toInt < 1
      rw [verdict.no_stack]
      exact fun value member => absurd member List.not_mem_nil
  | foreign file size pid checks status found length other verdict =>
    obtain ⟨_,_,invalid⟩ := verdict.status
    change _ ↔ ∀ value ∈ pid::stackValues checks, value.toInt < 1
    rw [verdict.no_stack,List.forall_mem_singleton,← invalid]
    constructor
    · exact fun sound => sound.foreign file found (length ▸ other)
    · intro error
      subst error
      exact soundVerdict_error pid

end

/-- The verdict is sound in exactly the runs where the local that was to hold the pid is
not looked at unassigned, or holds no valid pid by chance. -/
theorem verdict_sound_iff (alive : Pid → Bool) (d after : Directory) (path : Path) (trace : Trace)
    (result : Int × Pid)
    (runs : (verifyDeviceLockState path).Runs (alone alive) trace d result after) :
    SoundVerdict alive d path result ↔ ∀ value ∈ stackValues trace, value.toInt < 1 :=
  verification_sound_iff (verifyDeviceLockState_runs runs).2

section
variable {alive : Pid → Bool} {d after : Directory} {path : Path} {file : Nat}

theorem unlinking_faultless {c : Call} {answer : c.Result}
    (calls : perform alive ⟨none,sizeofPid,0⟩ d c = (answer,after)) : unlinking alive c d answer after :=
  ⟨_,fun _ _ => rfl,calls⟩

theorem unlinking_found (found : d.names path = some file) :
    unlinking alive (.openRdonly path) d (.ok file) d := by
  apply unlinking_faultless
  simp only [perform,Circumstance.attempt,found]
  rfl

/-- The check of a lock file that holds a pid, if no call fails. -/
theorem verifyDeviceLockState_binary {pid : Pid} (found : d.names path = some file)
    (content : d.files file = pidBytes pid) (valid : 1 ≤ pid.toInt) :
    (verifyDeviceLockState path).Runs (unlinking alive) [⟨.openRdonly path,.ok file⟩,
      ⟨.fstat file,.ok sizeofPid⟩,⟨.read file sizeofPid,.ok (pidBytes pid)⟩,
      ⟨.kill pid,if alive pid then .ok () else .error .ESRCH⟩] d
      (if alive pid then 0 else 1,pid) d := by
  have sized : unlinking alive (.fstat file) d (.ok sizeofPid) d := by
    apply unlinking_faultless
    change (Except.ok (d.files file).length,d) = _
    rw [content]
    rfl
  have taken : unlinking alive (.read file sizeofPid) d (.ok (pidBytes pid)) d := by
    apply unlinking_faultless
    change (Except.ok ((d.files file).take (min sizeofPid sizeofPid)),d) = _
    rw [content]
    rfl
  refine runs_invoke_bind.mpr ⟨.ok file,_,d,rfl,unlinking_found found,?_⟩
  refine runs_invoke_bind.mpr ⟨.ok sizeofPid,_,d,rfl,sized,?_⟩
  refine runs_invoke_bind.mpr ⟨.ok (pidBytes pid),_,d,rfl,taken,?_⟩
  dsimp only
  rw [pidOfBytes?_pidBytes]
  unfold checkPid
  dsimp only
  rw [if_neg (by omega)]
  cases lives : alive pid with
  | false =>
    refine ⟨.error .ESRCH,[],d,rfl,unlinking_faultless ?_,rfl,rfl,rfl⟩
    change (if alive pid then _ else (Except.error Errno.ESRCH,d)) = _
    rw [lives]
    rfl
  | true =>
    refine ⟨.ok (),[],d,rfl,unlinking_faultless ?_,rfl,rfl,rfl⟩
    change (if alive pid then (Except.ok (),d) else _) = _
    rw [lives]
    rfl

end

/-- The lock file of process 7, which is dead. -/
theorem verdict_sound_iff_dead : let path : Path := ['L']
    SoundVerdict (fun _ => false) ((Directory.empty.make path).rewrite 0 (pidBytes 7)) path (1,7) := by
  intro path
  let d := (Directory.empty.make path).rewrite 0 (pidBytes 7)
  have found : d.names path = some 0 := rfl
  have content : d.files 0 = pidBytes 7 := rfl
  let nobody : Pid → Bool := fun _ => false
  have runs : (verifyDeviceLockState path).Runs (unlinking nobody) _ d (1,7) d :=
    verifyDeviceLockState_binary found content (by decide)
  refine (verdict_sound_iff nobody d d path _ (1,7)
    (runs.mono fun _ _ _ _ => unlinking_alone)).mpr ?_
  exact fun value member => absurd member List.not_mem_nil

/-- The lock file of another program, and 7 lies on the stack. -/
theorem foreign_lock_stale : ¬∀ (alive : Pid → Bool) (d after : Directory) (path : Path)
    (trace : Trace) (result : Int × Pid),
    (verifyDeviceLockState path).Runs (alone alive) trace d result after →
      SoundVerdict alive d path result := by
  intro always
  let path : Path := ['L']
  let d := (Directory.empty.make path).rewrite 0 [32,32,32,32,32,32,49,50,51,52,10]
  have runs : (verifyDeviceLockState path).Runs (alone fun _ => false) [⟨.openRdonly path,.ok 0⟩,
      ⟨.fstat 0,.ok 11⟩,⟨.stack,(7 : Pid)⟩,⟨.kill 7,.error .ESRCH⟩] d (1,7) d :=
    ⟨.ok 0,_,d,rfl,⟨⟨none,0,7⟩,rfl⟩,.ok 11,_,d,rfl,⟨⟨none,0,7⟩,rfl⟩,
      (7 : Pid),_,d,rfl,⟨⟨none,0,7⟩,rfl⟩,.error .ESRCH,_,d,rfl,⟨⟨none,0,7⟩,rfl⟩,rfl,rfl,rfl⟩
  have sound := always _ d d path _ (1,7) runs
  exact absurd (sound.foreign 0 rfl (by decide)) (by decide)

end SerialIp
