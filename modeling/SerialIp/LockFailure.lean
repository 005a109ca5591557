import SerialIp.LockOwnership
import SerialIp.LockVerdict

/-! What create_uucp_lockfile leaves in the lock directory when it fails. No other process
changes the directory meanwhile, and every unlink() of an existing name succeeds. -/
namespace SerialIp
open Library Library.Program

/-- The path stands for a file that begins with this pid. -/
def Owned (d : Directory) (path : Path) (pid : Pid) : Prop :=
  ∃ file, d.names path = some file ∧ pidBytes pid <+: d.files file

/-- The calls behind the link() that has created the lock file, if one has. -/
def behindLink (lock : Path) : Trace → Option Trace
  | [] => none
  | ⟨.link _ path,.ok _⟩::rest => if path = lock then some rest else behindLink lock rest
  | _::rest => behindLink lock rest

/-- The call goes as it must for the lock to be found in order. -/
def Confirms (pid : Pid) : Exchange Call Call.Result → Prop
  | ⟨.openRdonly _,answer⟩ | ⟨.fstat _,answer⟩ => ∃ value, answer = .ok value
  | ⟨.read _ _,answer⟩ => ∃ bytes, answer = .ok bytes ∧ bytes.length = sizeofPid
  | ⟨.stack,value⟩ => value = pid
  | ⟨.kill _,answer⟩ => answer ≠ .error .ESRCH
  | _ => True

def OpenFails : Trace → Prop
  | ⟨.openCreat _,.error _⟩::_ => True
  | _ => False

/-- Without a lock the temporary file is gone and no lock file was left behind; with one
it is there. -/
structure NoLockLeft (conf : LockConfig) (device : Option Path) (pid : Pid) (trace : Trace)
    (result : Option Path) (after : Directory) : Prop where
  failed : result = none → after.names (uucpTmpFilename conf pid) = none ∧
    (behindLink (getUucpLockDeviceFile conf device) trace ≠ none →
      ¬Owned after (getUucpLockDeviceFile conf device) pid)
  locked : result ≠ none → Owned after (getUucpLockDeviceFile conf device) pid ∧
    after.names (uucpTmpFilename conf pid) = none

/-- The runs in which no old temporary file is in the way and the new lock is confirmed. -/
structure Confirmed (conf : LockConfig) (device : Option Path) (pid : Pid) (d : Directory)
    (trace : Trace) : Prop where
  opened : OpenFails trace → d.names (uucpTmpFilename conf pid) = none
  checked : ∀ rest, behindLink (getUucpLockDeviceFile conf device) trace = some rest →
    1 ≤ pid.toInt ∧ ∀ exchange ∈ rest, Confirms pid exchange

theorem behindLink_append (lock : Path) (early late : Trace) :
    behindLink lock (early ++ late) =
      match behindLink lock early with
      | some rest => some (rest ++ late)
      | none => behindLink lock late := by
  induction early with
  | nil => rfl
  | cons exchange early ih =>
    obtain ⟨c,answer⟩ := exchange
    cases c with
    | link oldPath newPath =>
      cases answer with
      | error errno => exact ih
      | ok done =>
        by_cases here : newPath = lock
        · simp [behindLink,here]
        · simp [behindLink,here,ih]
    | openCreat _ | openRdonly _ | fstat _ | read _ _ | write _ _ | unlink _ | kill _ | stack =>
      exact ih

section
variable {alive : Pid → Bool} {d after : Directory} {path : Path} {trace : Trace}

theorem unlinking_unlink {answer : Except Errno Unit}
    (acts : unlinking alive (.unlink path) d answer after) :
    after.names path = none ∧ after.files = d.files ∧
      ∀ other, other ≠ path → after.names other = d.names other := by
  obtain ⟨e,sure,calls⟩ := acts
  have fine := sure path rfl
  change e.attempt d _ = _ at calls
  unfold Circumstance.attempt at calls
  rw [fine] at calls
  dsimp only at calls
  split at calls
  · rename_i absent
    obtain ⟨_,rfl⟩ := Prod.mk.inj calls
    exact ⟨absent,rfl,fun _ _ => rfl⟩
  · obtain ⟨_,rfl⟩ := Prod.mk.inj calls
    exact ⟨d.remove_self path,rfl,fun other different => d.remove_other different⟩

theorem alone_link {oldPath newPath : Path} {answer : Except Errno Unit}
    (acts : alone alive (.link oldPath newPath) d answer after) :
    (∃ errno, answer = .error errno ∧ after = d) ∨ ∃ file, answer = .ok () ∧
      d.names oldPath = some file ∧ d.names newPath = none ∧ after = d.link oldPath newPath := by
  obtain ⟨e,calls⟩ := acts
  rcases Circumstance.attempt_cases calls with ⟨errno,failed,same⟩ | linked
  · exact Or.inl ⟨errno,failed,same⟩
  · split at linked <;> obtain ⟨rfl,rfl⟩ := Prod.mk.inj linked
    · exact Or.inl ⟨_,rfl,rfl⟩
    · exact Or.inl ⟨_,rfl,rfl⟩
    · exact Or.inr ⟨_,rfl,‹_›,‹_›,rfl⟩

theorem Verdict.confirms_iff {pid : Pid} {checks : Trace} {status : Int}
    (verdict : Verdict alive pid checks status) :
    status = 0 ↔ 1 ≤ pid.toInt ∧ ∀ exchange ∈ checks, Confirms pid exchange := by
  cases verdict with
  | invalid small => exact iff_of_false (by decide) (by omega)
  | dead valid gone =>
    refine iff_of_false (by decide) (fun all => ?_)
    exact all.2 _ List.mem_cons_self rfl
  | living valid runs answer known =>
    exact iff_of_true rfl ⟨valid,fun exchange member => List.mem_singleton.mp member ▸ known⟩

theorem behindLink_reads {lock : Path} (reads : ∀ exchange ∈ trace, exchange.1.Reads) :
    behindLink lock trace = none := by
  induction trace with
  | nil => rfl
  | cons exchange trace ih =>
    obtain ⟨first,rest⟩ := List.forall_mem_cons.mp reads
    obtain ⟨c,answer⟩ := exchange
    cases c with
    | openRdonly _ | fstat _ | read _ _ | kill _ | stack => exact ih rest
    | openCreat _ | write _ _ | link _ _ | unlink _ => exact first.elim

/-- A lock file that begins with the pid is found in order exactly if all calls confirm it. -/
theorem verification_confirms_iff {pid : Pid} {result : Int × Pid} (owned : Owned d path pid)
    (verification : Verification alive d path trace result) :
    result.1 = 0 ∧ result.2 = pid ↔
      1 ≤ pid.toInt ∧ ∀ exchange ∈ trace, Confirms pid exchange := by
  obtain ⟨own,place,begins⟩ := owned
  cases verification with
  | unopened errno =>
    refine iff_of_false (fun both => absurd both.1 (by decide)) (fun all => ?_)
    obtain ⟨_,fine⟩ := all.2 _ List.mem_cons_self
    contradiction
  | unsized file errno found =>
    refine iff_of_false (fun both => absurd both.1 (by decide)) (fun all => ?_)
    obtain ⟨_,fine⟩ := all.2 _ (List.mem_cons_of_mem _ List.mem_cons_self)
    contradiction
  | unread file answer found binary partly =>
    refine iff_of_false (fun both => absurd both.1 (by decide)) (fun all => ?_)
    obtain ⟨bytes,same,whole⟩ := all.2 ⟨.read file sizeofPid,answer⟩
      (List.mem_cons_of_mem _ (List.mem_cons_of_mem _ List.mem_cons_self))
    exact absurd whole (Nat.ne_of_lt (partly bytes same))
  | binary file other checks status found content verdict =>
    rw [found] at place
    rw [← Option.some.inj place,content] at begins
    have same : other = pid := by
      have bytes : pidBytes pid = pidBytes other := begins.eq_of_length rfl
      have read := pidOfBytes?_pidBytes pid
      rw [bytes,pidOfBytes?_pidBytes] at read
      exact Option.some.inj read
    subst same
    have opened : Confirms other ⟨.openRdonly path,.ok file⟩ := ⟨file,rfl⟩
    have sized : Confirms other ⟨.fstat file,.ok sizeofPid⟩ := ⟨sizeofPid,rfl⟩
    have taken : Confirms other ⟨.read file sizeofPid,.ok (pidBytes other)⟩ := ⟨_,rfl,rfl⟩
    rw [and_iff_left rfl,verdict.confirms_iff]
    simp only [List.forall_mem_cons,opened,sized,taken,true_and]
  | foreign file size other checks status found length different verdict =>
    have opened : Confirms pid ⟨.openRdonly path,.ok file⟩ := ⟨file,rfl⟩
    have sized : Confirms pid ⟨.fstat file,.ok size⟩ := ⟨size,rfl⟩
    have held : Confirms pid ⟨.stack,other⟩ ↔ other = pid := Iff.rfl
    simp only [List.forall_mem_cons,opened,sized,held,true_and]
    by_cases same : other = pid
    · subst same
      simp only [and_true,true_and]
      exact verdict.confirms_iff
    · exact iff_of_false (fun both => same both.2) (fun all => same all.2.1)

theorem writePidfile_runs {pid : Pid} {value : Int}
    (runs : (writePidfile path pid).Runs (unlinking alive) trace d value after) :
    (∀ lock, behindLink lock trace = none) ∧
      ((∀ late, OpenFails (trace ++ late)) ∧ value ≠ 0 ∧ after = d ∨
        (∀ late, ¬OpenFails (trace ++ late)) ∧
          (value ≠ 0 ∧ after.names path = none ∨ value = 0 ∧ Owned after path pid)) := by
  obtain ⟨opened,rest,mid,rfl,acts,body⟩ := runs_invoke_bind.mp runs
  obtain ⟨errno,rfl,rfl⟩ | ⟨file,rfl,placed⟩ : (∃ errno, opened = .error errno ∧ mid = d) ∨
      ∃ file, opened = .ok file ∧ mid.names path = some file := by
    obtain ⟨e,_,calls⟩ := acts
    obtain ⟨errno,failed,same⟩ | ⟨file,rfl,found,rfl⟩ | ⟨rfl,_,rfl⟩ := perform_openCreat calls
    · exact Or.inl ⟨errno,failed,same⟩
    · exact Or.inr ⟨file,rfl,found⟩
    · exact Or.inr ⟨_,rfl,d.make_new path⟩
  · obtain ⟨rfl,rfl,rfl⟩ := body
    exact ⟨fun _ => rfl,Or.inl ⟨fun _ => trivial,by decide,rfl⟩⟩
  obtain ⟨(written : Except Errno Nat),rest,last,rfl,acts,onward⟩ := runs_invoke_bind.mp body
  have ends : (written = .ok 4 ∧ rest = [] ∧ value = 0 ∧ after = last) ∨
      (Posix.unlink path >>= fun _ => (pure 1 : Posix Int)).Runs (unlinking alive) rest last value
        after := by
    split at onward
    · exact Or.inl ⟨rfl,onward⟩
    · exact Or.inr onward
  obtain ⟨rfl,rfl,rfl,rfl⟩ | removing := ends
  · refine ⟨fun _ => rfl,Or.inr ⟨fun _ => id,Or.inr ⟨rfl,file,?_⟩⟩⟩
    obtain ⟨e,_,calls⟩ := acts
    obtain ⟨errno,failed,_⟩ | ⟨count,whole,rfl⟩ := perform_write calls
    · contradiction
    · refine ⟨placed,?_⟩
      have size : (pidBytes pid).length = 4 := rfl
      have enough := Except.ok.inj whole
      rw [Directory.rewrite_self]
      unfold overwrite
      rw [List.take_of_length_le (by omega)]
      exact List.prefix_append _ _
  · obtain ⟨removed,rest,final,rfl,acts,finish⟩ := runs_invoke_bind.mp removing
    obtain ⟨rfl,rfl,rfl⟩ := finish
    exact ⟨fun _ => rfl,Or.inr ⟨fun _ => id,Or.inl ⟨by decide,(unlinking_unlink acts).1⟩⟩⟩

theorem linkLockfile_runs {tmpname lock : Path} {value : Except Errno Unit} {file : Nat}
    (placed : d.names tmpname = some file)
    (runs : (linkLockfile tmpname lock).Runs (unlinking alive) trace d value after) :
    (∃ errno, value = .error errno) ∧ behindLink lock trace = none ∨
      value = .ok () ∧ behindLink lock trace = some [] ∧ after.files = d.files ∧
        after.names lock = some file ∧ lock ≠ tmpname := by
  obtain ⟨linked,rest,mid,rfl,acts,body⟩ := runs_invoke_bind.mp runs
  obtain ⟨errno,rfl,rfl⟩ | ⟨_,rfl,found,free,rfl⟩ := alone_link (unlinking_alone acts)
  · cases errno with
    | ENOENT | ESRCH | other code =>
      obtain ⟨rfl,rfl,rfl⟩ := body
      exact Or.inl ⟨⟨_,rfl⟩,rfl⟩
    | EEXIST =>
      obtain ⟨early,late,⟨status,lockpid⟩,mid,rfl,verified,again⟩ := runs_bind.mp body
      have quiet : behindLink lock early = none :=
        behindLink_reads (verified.only (verifyDeviceLockState_reads lock))
      have behind : behindLink lock (⟨.link tmpname lock,.error .EEXIST⟩::(early ++ late)) =
          behindLink lock late := by
        change behindLink lock (early ++ late) = _
        rw [behindLink_append,quiet]
      obtain ⟨rfl,_⟩ := verifyDeviceLockState_runs (verified.mono fun _ _ _ _ => unlinking_alone)
      rw [behind]
      dsimp only at again
      split at again
      · obtain ⟨removed,rest,left,rfl,acts,relinks⟩ := runs_invoke_bind.mp again
        obtain ⟨gone,files,others⟩ := unlinking_unlink acts
        obtain ⟨rfl,acts⟩ := runs_invoke.mp relinks
        obtain ⟨errno,rfl,rfl⟩ | ⟨other,rfl,found,free,rfl⟩ := alone_link (unlinking_alone acts)
        · exact Or.inl ⟨⟨errno,rfl⟩,rfl⟩
        · have different : lock ≠ tmpname := by
            intro same
            rw [← same,gone] at found
            contradiction
          refine Or.inr ⟨rfl,?_,files,?_,different⟩
          · simp [behindLink]
          · rw [left.link_new,others tmpname different.symm,placed]
      · obtain ⟨rfl,rfl,rfl⟩ := again
        exact Or.inl ⟨⟨_,rfl⟩,rfl⟩
  · rw [placed] at found
    obtain ⟨rfl,rfl,rfl⟩ := body
    refine Or.inr ⟨rfl,?_,rfl,?_,?_⟩
    · simp [behindLink]
    · rw [d.link_new,placed]
    · intro same
      rw [same,placed] at free
      contradiction

theorem createUucpLockfile_runs {conf : LockConfig} {device : Option Path} {pid : Pid}
    {result : Option Path}
    (runs : (createUucpLockfile conf device pid).Runs (unlinking alive) trace d result after) :
    let tmpname := uucpTmpFilename conf pid
    let lock := getUucpLockDeviceFile conf device
    (OpenFails trace ∧ result = none ∧ after = d ∧ behindLink lock trace = none) ∨
      ¬OpenFails trace ∧ after.names tmpname = none ∧
        ((result = none ∧ behindLink lock trace = none) ∨
          ∃ rest, behindLink lock trace = some rest ∧ Owned after lock pid ∧
            (result ≠ none ↔ 1 ≤ pid.toInt ∧ ∀ exchange ∈ rest, Confirms pid exchange)) := by
  intro tmpname lock
  obtain ⟨early,late,ret,mid,rfl,wrote,onward⟩ := runs_bind.mp runs
  obtain ⟨quiet,failed⟩ := writePidfile_runs wrote
  have behind : behindLink lock (early ++ late) = behindLink lock late := by
    rw [behindLink_append,quiet]
  rw [behind]
  obtain ⟨fails,bad,rfl⟩ | ⟨opened,wrong⟩ := failed
  · rw [if_pos bad] at onward
    obtain ⟨rfl,rfl,rfl⟩ := onward
    exact Or.inl ⟨fails [],rfl,rfl,rfl⟩
  refine Or.inr ⟨opened late,?_⟩
  obtain ⟨bad,gone⟩ | ⟨rfl,file,placed,begins⟩ := wrong
  · rw [if_pos bad] at onward
    obtain ⟨rfl,rfl,rfl⟩ := onward
    exact ⟨gone,Or.inl ⟨rfl,rfl⟩⟩
  rw [if_neg (by decide)] at onward
  obtain ⟨early,late,linked,mid,rfl,links,finish⟩ := runs_bind.mp onward
  obtain ⟨⟨errno,rfl⟩,unlinked⟩ | ⟨rfl,made,files,found,different⟩ := linkLockfile_runs placed links
  · obtain ⟨removed,rest,left,rfl,acts,last⟩ := runs_invoke_bind.mp finish
    obtain ⟨rfl,rfl,rfl⟩ := last
    refine ⟨(unlinking_unlink acts).1,Or.inl ⟨rfl,?_⟩⟩
    rw [behindLink_append,unlinked]
    rfl
  · obtain ⟨removed,rest,left,rfl,acts,verifies⟩ := runs_invoke_bind.mp finish
    obtain ⟨gone,same,others⟩ := unlinking_unlink acts
    obtain ⟨checks,nothing,⟨status,lockpid⟩,final,rfl,verified,last⟩ := runs_bind.mp verifies
    obtain ⟨rfl,verification⟩ :=
      verifyDeviceLockState_runs (verified.mono fun _ _ _ _ => unlinking_alone)
    have owned : Owned final lock pid := by
      refine ⟨file,(others lock different).trans found,?_⟩
      rw [same,files]
      exact begins
    have confirms := verification_confirms_iff owned verification
    have returned : nothing = [] ∧ after = final ∧ (result ≠ none ↔ status = 0 ∧ lockpid = pid) := by
      dsimp only at last
      split at last
      · rename_i fine
        obtain ⟨rfl,rfl,rfl⟩ := last
        exact ⟨rfl,rfl,iff_of_true nofun fine⟩
      · rename_i bad
        obtain ⟨rfl,rfl,rfl⟩ := last
        exact ⟨rfl,rfl,iff_of_false (fun some => some rfl) bad⟩
    obtain ⟨rfl,rfl,verdict⟩ := returned
    refine ⟨gone,Or.inr ⟨⟨.unlink tmpname,removed⟩::checks,?_,owned,?_⟩⟩
    · rw [List.append_nil,behindLink_append,made]
      rfl
    · have harmless : Confirms pid ⟨.unlink tmpname,removed⟩ := trivial
      rw [verdict,confirms,List.forall_mem_cons,and_iff_right harmless]

/-- A failed attempt leaves nothing behind, and a successful one its lock, exactly in the
runs whose open() of the temporary file does not fail on an old one, and whose link() is
followed only by calls that confirm it. -/
theorem no_lock_left_iff (conf : LockConfig) (device : Option Path) (pid : Pid)
    (alive : Pid → Bool) (d after : Directory) (trace : Trace) (result : Option Path)
    (runs : (createUucpLockfile conf device pid).Runs (unlinking alive) trace d result after) :
    NoLockLeft conf device pid trace result after ↔ Confirmed conf device pid d trace := by
  obtain ⟨fails,rfl,rfl,quiet⟩ | ⟨opened,gone,ends⟩ := createUucpLockfile_runs runs
  · constructor
    · intro clean
      refine ⟨fun _ => (clean.failed rfl).1,fun rest behind => ?_⟩
      rw [quiet] at behind
      contradiction
    · exact fun confirmed =>
        ⟨fun _ => ⟨confirmed.opened fails,fun linked => absurd quiet linked⟩,fun some => absurd rfl some⟩
  · obtain ⟨rfl,quiet⟩ | ⟨rest,linked,owned,confirms⟩ := ends
    · refine iff_of_true ⟨fun _ => ⟨gone,fun linked => absurd quiet linked⟩,fun some => absurd rfl some⟩
        ⟨fun fails => absurd fails opened,fun rest behind => ?_⟩
      rw [quiet] at behind
      contradiction
    · have created : behindLink (getUucpLockDeviceFile conf device) trace ≠ none := by
        rw [linked]
        exact Option.some_ne_none rest
      constructor
      · intro clean
        refine ⟨fun fails => absurd fails opened,fun other behind => ?_⟩
        rw [linked] at behind
        rw [← Option.some.inj behind]
        exact confirms.mp fun none => (clean.failed none).2 created owned
      · intro confirmed
        have some := confirms.mpr (confirmed.checked rest linked)
        exact ⟨fun none => absurd none some,fun _ => ⟨owned,gone⟩⟩

/-- The directory once the lock file stands in for the temporary file. -/
def relinked (d : Directory) (tmpname lock : Path) (pid : Pid) : Directory :=
  (((d.make tmpname).rewrite d.fresh (pidBytes pid)).link tmpname lock).remove tmpname

theorem relinked_found (d : Directory) {tmpname lock : Path} (pid : Pid) (apart : lock ≠ tmpname) :
    (relinked d tmpname lock pid).names lock = some d.fresh ∧
      (relinked d tmpname lock pid).files d.fresh = pidBytes pid := by
  refine ⟨?_,Directory.rewrite_self ..⟩
  unfold relinked
  rw [Directory.remove_other _ apart,Directory.link_new]
  exact d.make_new tmpname

theorem behindLink_links (lock tmpname oldPath : Path) (file : Nat) (bytes : List UInt8)
    (opened : Except Errno Nat) (written : Except Errno Nat) (rest : Trace) :
    behindLink lock ([⟨.openCreat tmpname,opened⟩,⟨.write file bytes,written⟩] ++
      (⟨.link oldPath lock,.ok ()⟩::rest)) = some rest :=
  if_pos rfl

/-- The attempt in a directory without either file, up to the check at its end. -/
theorem createUucpLockfile_links {conf : LockConfig} {device : Option Path} {pid lockpid : Pid}
    {tmpname lock : Path} {checks : Trace} {status : Int} (tmp : uucpTmpFilename conf pid = tmpname)
    (named : getUucpLockDeviceFile conf device = lock) (apart : lock ≠ tmpname)
    (absent : d.names tmpname = none) (free : d.names lock = none)
    (verified : (verifyDeviceLockState lock).Runs (unlinking alive) checks
      (relinked d tmpname lock pid) (status,lockpid) (relinked d tmpname lock pid)) :
    (createUucpLockfile conf device pid).Runs (unlinking alive)
      ([⟨.openCreat tmpname,.ok d.fresh⟩,⟨.write d.fresh (pidBytes pid),.ok 4⟩] ++
        (⟨.link tmpname lock,.ok ()⟩::⟨.unlink tmpname,.ok ()⟩::checks)) d
      (if status = 0 ∧ lockpid = pid then some lock else none) (relinked d tmpname lock pid) := by
  subst tmp named
  let opened := d.make (uucpTmpFilename conf pid)
  let written := opened.rewrite d.fresh (pidBytes pid)
  let linked := written.link (uucpTmpFilename conf pid) (getUucpLockDeviceFile conf device)
  have placed : written.names (uucpTmpFilename conf pid) = some d.fresh := d.make_new _
  have vacant : written.names (getUucpLockDeviceFile conf device) = none :=
    (d.make_other apart).trans free
  have wrote : (writePidfile (uucpTmpFilename conf pid) pid).Runs (unlinking alive)
      [⟨.openCreat (uucpTmpFilename conf pid),.ok d.fresh⟩,⟨.write d.fresh (pidBytes pid),.ok 4⟩] d 0
      written := by
    refine ⟨.ok d.fresh,_,opened,rfl,unlinking_faultless ?_,.ok 4,[],written,rfl,
      unlinking_faultless ?_,rfl,rfl,rfl⟩
    · simp only [perform,Circumstance.attempt,absent]
      rfl
    · change (Except.ok (min 4 4),opened.rewrite d.fresh (overwrite _ (opened.files d.fresh) 4)) = _
      rw [d.make_empty]
      rfl
  have links : (linkLockfile (uucpTmpFilename conf pid) (getUucpLockDeviceFile conf device)).Runs
      (unlinking alive)
      [⟨.link (uucpTmpFilename conf pid) (getUucpLockDeviceFile conf device),.ok ()⟩] written (.ok ())
      linked := by
    refine ⟨.ok (),[],linked,rfl,unlinking_faultless ?_,rfl,rfl,rfl⟩
    simp only [perform,Circumstance.attempt,placed,vacant]
    rfl
  have unlinks : unlinking alive (.unlink (uucpTmpFilename conf pid)) linked (.ok ())
      (linked.remove (uucpTmpFilename conf pid)) := by
    apply unlinking_faultless
    have found : linked.names (uucpTmpFilename conf pid) = some d.fresh :=
      (written.link_other _ apart.symm).trans placed
    simp only [perform,Circumstance.attempt,found]
    rfl
  refine runs_bind.mpr ⟨_,_,0,written,rfl,wrote,?_⟩
  rw [if_neg (by decide)]
  refine runs_bind.mpr ⟨[_],_,.ok (),linked,rfl,links,?_⟩
  refine runs_invoke_bind.mpr ⟨.ok (),checks,_,rfl,unlinks,?_⟩
  refine runs_bind.mpr ⟨checks,[],(status,lockpid),_,(List.append_nil _).symm,verified,?_⟩
  dsimp only
  split
  · exact ⟨rfl,rfl,rfl⟩
  · exact ⟨rfl,rfl,rfl⟩

end

/-- Process 7 locks a device and nothing fails. -/
theorem no_lock_left_iff_locked : ∃ trace after lock,
    NoLockLeft ⟨none,none⟩ (some ['x']) 7 trace (some lock) after := by
  let tmpname := uucpTmpFilename ⟨none,none⟩ 7
  let lock := getUucpLockDeviceFile ⟨none,none⟩ (some ['x'])
  have apart : lock ≠ tmpname := by decide
  obtain ⟨found,content⟩ := relinked_found .empty 7 apart
  have verified : (verifyDeviceLockState lock).Runs (unlinking fun _ => true) _
      (relinked .empty tmpname lock 7) (0,7) (relinked .empty tmpname lock 7) :=
    verifyDeviceLockState_binary found content (by decide)
  have runs := createUucpLockfile_links rfl rfl apart rfl rfl verified
  refine ⟨_,_,lock,(no_lock_left_iff _ _ 7 _ .empty _ _ _ runs).mpr ⟨fun fails => fails.elim,?_⟩⟩
  intro rest behind
  have linked := behind.symm.trans (behindLink_links ..)
  obtain rfl := Option.some.inj linked
  refine ⟨by decide,?_⟩
  simp only [List.forall_mem_cons]
  exact ⟨trivial,⟨_,rfl⟩,⟨_,rfl⟩,⟨_,rfl,rfl⟩,nofun,nofun⟩

/-- The new lock file cannot be opened for the check at the end. -/
theorem unverified_lock_left : ¬∀ (conf : LockConfig) (device : Option Path) (pid : Pid)
    (alive : Pid → Bool) (d after : Directory) (trace : Trace) (result : Option Path),
    (createUucpLockfile conf device pid).Runs (unlinking alive) trace d result after →
      NoLockLeft conf device pid trace result after := by
  intro always
  let tmpname := uucpTmpFilename ⟨none,none⟩ 7
  let lock := getUucpLockDeviceFile ⟨none,none⟩ (some ['x'])
  have apart : lock ≠ tmpname := by decide
  obtain ⟨found,content⟩ := relinked_found .empty 7 apart
  have verified : (verifyDeviceLockState lock).Runs (unlinking fun _ => true)
      [⟨.openRdonly lock,.error (.other 24)⟩] (relinked .empty tmpname lock 7) (-1,0)
      (relinked .empty tmpname lock 7) :=
    ⟨.error (.other 24),[],_,rfl,⟨⟨some 24,0,0⟩,fun _ => nofun,rfl⟩,rfl,rfl,rfl⟩
  have runs := createUucpLockfile_links rfl rfl apart rfl rfl verified
  obtain ⟨_,nothing⟩ := (always _ _ 7 _ .empty _ _ _ runs).failed rfl
  refine nothing (fun none => ?_) ⟨_,found,?_⟩
  · have linked := none.symm.trans (behindLink_links ..)
    contradiction
  · exact ⟨[],(List.append_nil _).trans content.symm⟩

end SerialIp
