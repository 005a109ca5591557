import SerialIp.LockSharing

/-! What the programs of pidfile_handle.c do on the terms of the lock directory:
where `create_uucp_lockfile` returns a lock file, the process owns it, and
`unlock_uucp_lockfile` gives it up. -/
namespace SerialIp
open Library Library.Program

variable {conf : LockConfig} {pid : Pid}

theorem checkPid_reads (pid : Pid) : (checkPid pid).Only Call.Reads := by
  unfold checkPid
  split
  · trivial
  · refine .bind (.invoke trivial) ?_
    intro result
    split <;> trivial

theorem verifyDeviceLockState_reads (path : Path) :
    (verifyDeviceLockState path).Only Call.Reads := by
  refine .bind (.invoke trivial) ?_
  intro result
  rcases result with _ | fd
  · trivial
  · refine .bind (.invoke trivial) ?_
    intro result
    rcases result with _ | size
    · trivial
    · dsimp only
      split
      · refine .bind (.invoke trivial) ?_
        intro result
        rcases result with _ | bytes
        · trivial
        · dsimp only
          split
          · trivial
          · exact checkPid_reads _
      · exact .bind (.invoke trivial) checkPid_reads

section
variable {path : Path}
open Posix

def Opened (conf : LockConfig) (pid : Pid) : Except Errno Nat → World → Prop
  | .ok file,w => Sane conf w.directory ∧ w.directory.names (uucpTmpFilename conf pid) = some file
  | .error _,w => Sane conf w.directory

def Written (conf : LockConfig) (pid : Pid) : Except Errno Nat → World → Prop
  | .ok 4,w => Prepared conf pid w
  | _,w => Sane conf w.directory

theorem Prepared.written {w : World} (prepared : Prepared conf pid w) (result : Except Errno Nat) :
    Written conf pid result w := by
  unfold Written
  split
  · exact prepared
  · exact prepared.1

section
variable {W : Type} {view : W → World} {base kept : W → Prop} {k : Contract Call Call.Result W}

theorem Terms.opened_stable (terms : Terms conf pid view base k) :
    ∀ result, Stable k fun w => base w ∧ Opened conf pid result (view w)
  | .ok _,w,later,now,between => by
    obtain ⟨firm,untouched⟩ := terms.rely w later between
    exact ⟨firm,terms.sane later firm,untouched.name.trans now.2.2⟩
  | .error _,w,later,_,between => by
    obtain ⟨firm,_⟩ := terms.rely w later between
    exact ⟨firm,terms.sane later firm⟩

theorem Terms.written_stable (terms : Terms conf pid view base k) (result : Except Errno Nat) :
    Stable k fun w => base w ∧ Written conf pid result (view w) := by
  intro w later now between
  obtain ⟨firm,written⟩ := now
  obtain ⟨steady,_⟩ := terms.rely w later between
  refine ⟨steady,?_⟩
  unfold Written at written ⊢
  split
  · exact (terms.prepared_stable w later ⟨firm,written⟩ between).2
  · exact terms.sane later steady

theorem Terms.unlink_tmp (terms : Terms conf pid view base k) (stable : Stable k kept)
    (based : ∀ w, kept w → base w)
    (moved : ∀ w after, kept w → base after →
      Moves conf pid (view w).directory (view after).directory → kept after) :
    Triple k kept (unlink (uucpTmpFilename conf pid)) fun _ => kept := by
  refine .invoke stable (fun _ => stable) ?_
  intro w result after now act
  obtain ⟨_,calls⟩ := terms.performs _ w result after act
  have sane := terms.sane w (based w now)
  have aside : Aside conf pid (view w).directory (view after).directory := by
    rcases perform_unlink calls with same | removed
    · exact .still sane same
    · rw [removed]
      exact .remove sane
  obtain ⟨allowed,firm⟩ := terms.aside _ w result after (based w now) act (fun _ _ => nofun) aside
  exact ⟨allowed,moved w after now firm aside.toMoves⟩

theorem Terms.openCreat_opened (terms : Terms conf pid view base k) :
    Triple k base (openCreat (uucpTmpFilename conf pid))
      fun result w => base w ∧ Opened conf pid result (view w) := by
  refine .invoke terms.stable terms.opened_stable ?_
  intro w result after firm act
  obtain ⟨_,calls⟩ := terms.performs _ w result after act
  have sane := terms.sane w firm
  have allowed := terms.aside _ w result after firm act fun _ _ => nofun
  rcases perform_openCreat calls with ⟨_,rfl,same⟩ | ⟨file,rfl,found,same⟩ | ⟨rfl,absent,made⟩
  · have aside : Aside conf pid (view w).directory (view after).directory := .still sane same
    obtain ⟨may,steady⟩ := allowed aside
    exact ⟨may,steady,aside.sane⟩
  · have aside : Aside conf pid (view w).directory (view after).directory := .still sane same
    obtain ⟨may,steady⟩ := allowed aside
    refine ⟨may,steady,aside.sane,?_⟩
    rw [same]
    exact found
  · have aside : Aside conf pid (view w).directory (view after).directory :=
      made ▸ .make sane absent
    obtain ⟨may,steady⟩ := allowed aside
    refine ⟨may,steady,aside.sane,?_⟩
    rw [made]
    exact (view w).directory.make_new _

theorem Terms.write_written (terms : Terms conf pid view base k) (file : Nat) :
    Triple k (fun w => base w ∧ Opened conf pid (.ok file) (view w)) (write file (pidBytes pid))
      fun result w => base w ∧ Written conf pid result (view w) := by
  refine .invoke (terms.opened_stable (.ok file)) terms.written_stable ?_
  intro w result after now act
  obtain ⟨firm,sane,tmp⟩ := now
  obtain ⟨_,calls⟩ := terms.performs _ w result after act
  have allowed := terms.aside _ w result after firm act fun _ _ => nofun
  rcases perform_write calls with ⟨errno,rfl,same⟩ | ⟨count,rfl,changed⟩
  · have aside : Aside conf pid (view w).directory (view after).directory := .still sane same
    obtain ⟨may,steady⟩ := allowed aside
    exact ⟨may,steady,aside.sane⟩
  · have aside : Aside conf pid (view w).directory (view after).directory := by
      rw [changed]
      refine ⟨moves_rewrite sane tmp
        (overwrite_length count (Nat.le_refl _) (sane.short _ _ tmp)) ?_,fun _ _ => rfl⟩
      intro content
      rw [content]
      exact overwrite_same _ _
    obtain ⟨may,steady⟩ := allowed aside
    refine ⟨may,steady,?_⟩
    by_cases whole : 4 ≤ count
    · refine Prepared.written ⟨aside.sane,file,?_,?_⟩ _
      · rw [changed]
        exact tmp
      · rw [changed,Directory.rewrite_self]
        exact overwrite_whole (sane.short _ _ tmp) whole
    · have short : min (pidBytes pid).length count ≠ 4 := by
        change min 4 count ≠ 4
        omega
      unfold Written
      split
      · exact absurd (Except.ok.inj ‹_›) short
      · exact aside.sane

theorem Terms.writePidfile_prepares (terms : Terms conf pid view base k) :
    Triple k base (writePidfile (uucpTmpFilename conf pid) pid)
      fun ret w => base w ∧ (ret = 0 → Prepared conf pid (view w)) := by
  have stable (ret : Int) : Stable k fun w => base w ∧ (ret = 0 → Prepared conf pid (view w)) := by
    intro w later now between
    exact ⟨(terms.rely w later between).1,
      fun zero => (terms.prepared_stable w later ⟨now.1,now.2 zero⟩ between).2⟩
  refine terms.openCreat_opened.bind ?_
  intro result
  rcases result with _ | file
  · exact .weaken (.done stable (-1)) fun w now => ⟨now.1,fun zero => absurd zero (by decide)⟩
  · refine (terms.write_written file).bind ?_
    intro result
    split
    · exact .weaken (.done stable 0) fun w now => ⟨now.1,fun _ => now.2⟩
    · refine .weaken ((terms.unlink_tmp terms.stable (fun _ firm => firm) ?_).bind fun _ => ?_)
        fun w now => now.1
      · exact fun _ _ _ firm _ => firm
      · exact .weaken (.done stable 1) fun w firm => ⟨firm,fun zero => absurd zero (by decide)⟩

end

theorem unlink_tmp_sane : Triple (creating conf pid) (fun w => Sane conf w.directory)
    (unlink (uucpTmpFilename conf pid)) fun _ w => Sane conf w.directory :=
  sane_terms.unlink_tmp sane_stable (fun _ sane => sane) fun _ _ _ sane _ => sane

theorem unlink_tmp_owns (separate : Separate conf path) : Triple (creating conf pid)
    (Owns conf pid path) (unlink (uucpTmpFilename conf pid)) fun _ => Owns conf pid path :=
  sane_terms.unlink_tmp (owns_stable separate) (fun _ owns => owns.1)
    fun _ _ owns sane moves => ⟨sane,moves.locks pid path separate owns.2⟩

theorem Prepared.congr {w after : World} (prepared : Prepared conf pid w)
    (same : after.directory = w.directory) : Prepared conf pid after := by
  unfold Prepared
  rw [same]
  exact prepared

theorem Owns.congr {w after : World} (owns : Owns conf pid path w)
    (same : after.directory = w.directory) : Owns conf pid path after := by
  unfold Owns
  rw [same]
  exact owns

theorem verify_prepared (path : Path) : Triple (creating conf pid) (Prepared conf pid)
    (verifyDeviceLockState path) fun _ => Prepared conf pid :=
  sane_terms.reading prepared_stable (fun _ prepared => prepared.1)
    (fun _ _ prepared _ same => prepared.congr same) (verifyDeviceLockState_reads path)

theorem verify_owns (separate : Separate conf path) : Triple (creating conf pid)
    (Owns conf pid path) (verifyDeviceLockState path) fun _ => Owns conf pid path :=
  sane_terms.reading (owns_stable separate) (fun _ owns => owns.1)
    (fun _ _ owns _ same => owns.congr same) (verifyDeviceLockState_reads path)

def Linked (conf : LockConfig) (pid : Pid) (path : Path) : Except Errno Unit → World → Prop
  | .ok _,w => Owns conf pid path w
  | .error _,w => Prepared conf pid w

theorem linked_stable (separate : Separate conf path) :
    ∀ result, Stable (creating conf pid) (Linked conf pid path result)
  | .ok _ => owns_stable separate
  | .error _ => prepared_stable

theorem link_linked (separate : Separate conf path) : Triple (creating conf pid) (Prepared conf pid)
    (link (uucpTmpFilename conf pid) path) (Linked conf pid path) := by
  refine .invoke prepared_stable (linked_stable separate) ?_
  intro w result after prepared act
  obtain ⟨sane,file,tmp,content⟩ := prepared
  obtain ⟨_,_,_,calls⟩ := act
  rcases perform_link calls with ⟨errno,rfl,same⟩ | ⟨rfl,absent,linked⟩
  · have moves : Moves conf pid w.directory after.directory := .still sane same
    exact ⟨moves.guarantee,Prepared.congr ⟨sane,file,tmp,content⟩ same⟩
  · have moves : Moves conf pid w.directory after.directory :=
      linked ▸ moves_link sane separate tmp content absent
    refine ⟨moves.guarantee,moves.sane,file,?_,?_⟩
    · rw [linked,Directory.link_new]
      exact tmp
    · rw [linked]
      exact content

/-- Removing a stale lock: no live process owned it, and the temporary file stays. -/
theorem unlink_stale (separate : Separate conf path) : Triple (creating conf pid) (Prepared conf pid)
    (unlink path) fun _ => Prepared conf pid := by
  refine .invoke prepared_stable (fun _ => prepared_stable) ?_
  intro w result after prepared act
  obtain ⟨sane,file,tmp,content⟩ := prepared
  obtain ⟨harmless,_,_,calls⟩ := act
  rcases perform_unlink calls with same | removed
  · have moves : Moves conf pid w.directory after.directory := .still sane same
    exact ⟨moves.guarantee,Prepared.congr ⟨sane,file,tmp,content⟩ same⟩
  · have dead := harmless.resolve_left (separate pid).symm
    have clean : Sane conf after.directory := removed ▸ sane.remove path
    have tmps (other : Pid) : after.directory.names (uucpTmpFilename conf other) =
        w.directory.names (uucpTmpFilename conf other) := by
      rw [removed]
      exact w.directory.remove_other (separate other)
    have files : after.directory.files = w.directory.files := by
      rw [removed]
      rfl
    refine ⟨⟨clean,?_,?_⟩,clean,file,(tmps pid).trans tmp,?_⟩
    · intro other _
      refine ⟨tmps other,fun _ _ => ?_⟩
      rw [files]
    · intro owner lock alive _ _ named
      rw [removed]
      refine named.remove ?_
      intro same
      subst same
      rw [dead owner named.owner] at alive
      contradiction
    · rw [files]
      exact content

theorem linkLockfile_linked (separate : Separate conf path) :
    Triple (creating conf pid) (Prepared conf pid)
      (linkLockfile (uucpTmpFilename conf pid) path) (Linked conf pid path) := by
  refine (link_linked separate).bind ?_
  intro ret
  dsimp only
  split
  · refine (verify_prepared path).bind ?_
    intro verified
    obtain ⟨status,_⟩ := verified
    dsimp only
    split
    · exact (unlink_stale separate).bind fun _ => link_linked separate
    · exact .done (linked_stable separate) (.error .EEXIST)
  · exact .done (linked_stable separate) ret

def Created (conf : LockConfig) (pid : Pid) : Option Path → World → Prop
  | some path,w => Separate conf path ∧ w.directory.Names path pid
  | none,_ => True

theorem created_stable : ∀ ret, Stable (creating conf pid) (Created conf pid ret)
  | some path,_,_,now,between => ⟨now.1,between.2.2 path now.1 now.2⟩
  | none,_,_,_,_ => trivial

theorem createUucpLockfile_created {device : Option Path}
    (separate : Separate conf (getUucpLockDeviceFile conf device)) :
    Triple (creating conf pid) (fun w => Sane conf w.directory)
      (createUucpLockfile conf device pid) (Created conf pid) := by
  have failing {pre : World → Prop} : Triple (creating conf pid) pre
      (pure none : Posix (Option Path)) (Created conf pid) :=
    .weaken (.done created_stable none) fun _ _ => trivial
  refine sane_terms.writePidfile_prepares.bind ?_
  intro ret
  dsimp only
  split
  · exact failing
  · rename_i zero
    refine .weaken ((linkLockfile_linked separate).bind ?_) fun w now => now.2 (not_not.mp zero)
    intro result
    rcases result with _ | _
    · exact .weaken (unlink_tmp_sane.bind fun _ => failing) fun w prepared => prepared.1
    · refine (unlink_tmp_owns separate).bind fun _ => (verify_owns separate).bind ?_
      intro verified
      obtain ⟨status,lockpid⟩ := verified
      dsimp only
      split
      · exact .weaken (.done created_stable (some _)) fun w owns => ⟨separate,owns.2⟩
      · exact failing

theorem unlockUucpLockfile_given {device : Option Path}
    (separate : Separate conf (getUucpLockDeviceFile conf device)) :
    Triple (unlocking conf pid (getUucpLockDeviceFile conf device))
      (Owns conf pid (getUucpLockDeviceFile conf device)) (unlockUucpLockfile conf device)
      fun _ _ => True := by
  have anything {ret : Int} {pre : World → Prop} :
      Triple (unlocking conf pid (getUucpLockDeviceFile conf device)) pre
        (pure ret : Posix Int) fun _ _ => True := fun _ _ _ _ => trivial
  have removed : Triple (unlocking conf pid (getUucpLockDeviceFile conf device))
      (Owns conf pid (getUucpLockDeviceFile conf device))
      (unlink (getUucpLockDeviceFile conf device)) fun _ _ => True := by
    refine .invoke (owns_stable separate) (fun _ _ _ _ _ => trivial) ?_
    intro w result after owns act
    obtain ⟨sane,named⟩ := owns
    obtain ⟨_,_,_,calls⟩ := act
    refine ⟨?_,trivial⟩
    rcases perform_unlink calls with same | removed
    · exact (Moves.still sane same).guarantee
    · refine ⟨removed ▸ sane.remove _,?_,?_⟩
      · intro other _
        rw [removed]
        exact ⟨w.directory.remove_other (separate other),fun _ _ => rfl⟩
      · intro owner path _ mine _ held
        rw [removed]
        refine held.remove ?_
        intro same
        subst same
        exact mine ⟨held.unique named,rfl⟩
  refine removed.bind ?_
  intro result
  rcases result with _ | _
  · exact anything
  · exact anything

end

end SerialIp
