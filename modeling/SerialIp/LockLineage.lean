import SerialIp.LockExclusion

/-! Where lock files come from: in any interleaving, the file of a lock path holds
the whole pid of the process that linked its temporary file there. -/
namespace SerialIp
open Library Library.Program

abbrev Links := Path → Option (Pid × Path)

/-- Beside the world, which process made each path by a link, and from which path. -/
structure Registry extends World where
  linked : Links

def relink (pid : Pid) (linked : Links) : (c : Call) → c.Result → Links
  | .link oldPath newPath,.ok _ => Function.update linked newPath (some (pid,oldPath))
  | _,_ => linked

def Complete (conf : LockConfig) (d : Directory) (linked : Links) : Prop :=
  ∀ path file, Separate conf path → d.names path = some file →
    ∃ owner, linked path = some (owner,uucpTmpFilename conf owner) ∧ d.files file = pidBytes owner

structure Accounted (conf : LockConfig) (r : Registry) : Prop where
  sane : Sane conf r.directory
  locks : Complete conf r.directory r.linked

/-- Nothing is asked of the calls, so a stale lock may be removed too late. -/
def lineage (conf : LockConfig) (pid : Pid) : Contract Call Call.Result Registry where
  act c r result after := after.alive = r.alive ∧ after.linked = relink pid r.linked c result ∧
    ∃ e, perform r.alive e r.directory c = (result,after.directory)
  rely r after := Accounted conf after ∧ Untouched conf pid r.directory after.directory
  guarantee r after := Accounted conf after ∧
    ∀ other, other ≠ pid → Untouched conf other r.directory after.directory

variable {conf : LockConfig} {pid : Pid}

theorem relink_unlinked {c : Call} (linked : Links) (result : c.Result)
    (unlinked : ∀ oldPath newPath, c ≠ .link oldPath newPath) :
    relink pid linked c result = linked := by
  cases c with
  | link oldPath newPath => exact absurd rfl (unlinked oldPath newPath)
  | _ => rfl

theorem Accounted.still {r after : Registry} (accounted : Accounted conf r)
    (same : after.directory = r.directory) (origin : after.linked = r.linked) :
    Accounted conf after := by
  constructor
  · rw [same]
    exact accounted.sane
  · rw [same,origin]
    exact accounted.locks

theorem Accounted.remove {r after : Registry} {path : Path} (accounted : Accounted conf r)
    (removed : after.directory = r.directory.remove path) (same : after.linked = r.linked) :
    Accounted conf after := by
  refine ⟨removed ▸ accounted.sane.remove path,fun lock file separate named => ?_⟩
  rw [removed] at named ⊢
  rw [same]
  by_cases here : lock = path
  · subst here
    rw [Directory.remove_self] at named
    contradiction
  · rw [Directory.remove_other _ here] at named
    exact accounted.locks lock file separate named

theorem lineage_terms : Terms conf pid Registry.toWorld (Accounted conf) (lineage conf pid) where
  sane _ accounted := accounted.sane
  performs _ _ _ _ act := act.2.2
  rely _ _ between := between
  aside := by
    intro c r result after accounted act unlinked aside
    have firm : Accounted conf after := by
      refine ⟨aside.sane,fun path file separate named => ?_⟩
      have before := (aside.locked path separate).symm.trans named
      obtain ⟨owner,origin,content⟩ := accounted.locks path file separate before
      obtain ⟨found,again,holds⟩ := aside.locks owner path separate ⟨file,before,content⟩
      refine ⟨owner,?_,Option.some.inj (again.symm.trans named) ▸ holds⟩
      rw [act.2.1,relink_unlinked _ _ unlinked]
      exact origin
    exact ⟨⟨firm,aside.others⟩,firm⟩

def Ready (conf : LockConfig) (pid : Pid) (r : Registry) : Prop :=
  Accounted conf r ∧ Prepared conf pid r.toWorld

theorem ready_stable : Stable (lineage conf pid) (Ready conf pid) := lineage_terms.prepared_stable

section
variable {path : Path}
open Posix

theorem link_ready (separate : Separate conf path) : Triple (lineage conf pid) (Ready conf pid)
    (link (uucpTmpFilename conf pid) path) fun _ => Ready conf pid := by
  refine .invoke ready_stable (fun _ => ready_stable) ?_
  intro r result after ready act
  obtain ⟨accounted,_,file,tmp,content⟩ := ready
  obtain ⟨_,origin,_,calls⟩ := act
  rcases perform_link calls with ⟨errno,rfl,same⟩ | ⟨rfl,absent,linked⟩
  · have firm : Accounted conf after := accounted.still same origin
    refine ⟨⟨firm,fun other _ => same ▸ .refl _ _ _⟩,firm,firm.sane,file,?_⟩
    rw [same]
    exact ⟨tmp,content⟩
  · have moves : Moves conf pid r.directory after.directory :=
      linked ▸ moves_link accounted.sane separate tmp content absent
    have firm : Accounted conf after := by
      refine ⟨moves.sane,fun lock found apart named => ?_⟩
      rw [linked] at named
      rw [linked,origin]
      by_cases here : lock = path
      · subst here
        rw [Directory.link_new] at named
        refine ⟨pid,Function.update_self ..,?_⟩
        rw [← Option.some.inj (tmp.symm.trans named)]
        exact content
      · rw [Directory.link_other _ _ here] at named
        obtain ⟨owner,before,holds⟩ := accounted.locks lock found apart named
        exact ⟨owner,(Function.update_of_ne here _ _).trans before,holds⟩
    refine ⟨⟨firm,moves.others⟩,firm,firm.sane,file,?_⟩
    rw [linked]
    exact ⟨(r.directory.link_other _ (separate pid)).trans tmp,content⟩

/-- Removing any lock file, stale or not. -/
theorem unlink_lock {kept : Registry → Prop} (separate : Separate conf path)
    (stable : Stable (lineage conf pid) kept) (based : ∀ r, kept r → Accounted conf r) :
    Triple (lineage conf pid) kept (unlink path) fun _ => kept := by
  refine .invoke stable (fun _ => stable) ?_
  intro r result after now act
  obtain ⟨_,origin,_,calls⟩ := act
  have shared : Accounted conf after ∧ ∀ other, Untouched conf other r.directory after.directory := by
    rcases perform_unlink calls with same | removed
    · exact ⟨(based r now).still same origin,fun other => same ▸ .refl _ _ _⟩
    · refine ⟨(based r now).remove removed origin,fun other => ?_⟩
      rw [removed]
      exact ⟨r.directory.remove_other (separate other),fun _ _ => rfl⟩
  obtain ⟨firm,untouched⟩ := shared
  exact ⟨⟨firm,fun other _ => untouched other⟩,stable r after now ⟨firm,untouched pid⟩⟩

theorem verify_keeps {kept : Registry → Prop} (stable : Stable (lineage conf pid) kept)
    (based : ∀ r, kept r → Accounted conf r) (path : Path) :
    Triple (lineage conf pid) kept (verifyDeviceLockState path) fun _ => kept := by
  refine lineage_terms.reading stable based ?_ (verifyDeviceLockState_reads path)
  intro r after now firm same
  exact stable r after now ⟨firm,same ▸ .refl _ _ _⟩

theorem unlink_tmp_accounted : Triple (lineage conf pid) (Accounted conf)
    (unlink (uucpTmpFilename conf pid)) fun _ => Accounted conf :=
  lineage_terms.unlink_tmp lineage_terms.stable (fun _ accounted => accounted) fun _ _ _ firm _ => firm

theorem linkLockfile_ready (separate : Separate conf path) :
    Triple (lineage conf pid) (Ready conf pid)
      (linkLockfile (uucpTmpFilename conf pid) path) fun _ => Ready conf pid := by
  refine (link_ready separate).bind ?_
  intro ret
  dsimp only
  split
  · refine (verify_keeps ready_stable (fun _ ready => ready.1) path).bind ?_
    intro verified
    obtain ⟨status,_⟩ := verified
    dsimp only
    split
    · exact (unlink_lock separate ready_stable fun _ ready => ready.1).bind
        fun _ => link_ready separate
    · exact .done (fun _ => ready_stable) (Except.error Errno.EEXIST)
  · exact .done (fun _ => ready_stable) ret

theorem createUucpLockfile_lineage {device : Option Path}
    (separate : Separate conf (getUucpLockDeviceFile conf device)) :
    Triple (lineage conf pid) (Accounted conf) (createUucpLockfile conf device pid)
      fun _ => Accounted conf := by
  have ending {ret : Option Path} : Triple (lineage conf pid) (Accounted conf)
      (pure ret : Posix (Option Path)) fun _ => Accounted conf :=
    .done (fun _ => lineage_terms.stable) ret
  refine lineage_terms.writePidfile_prepares.bind ?_
  intro ret
  dsimp only
  split
  · exact ending.weaken fun _ now => now.1
  · rename_i zero
    refine .weaken ((linkLockfile_ready separate).bind ?_) fun r now => ⟨now.1,now.2 (not_not.mp zero)⟩
    intro result
    rcases result with _ | _
    · exact .weaken (unlink_tmp_accounted.bind fun _ => ending) fun _ ready => ready.1
    · refine .weaken (unlink_tmp_accounted.bind fun _ => ?_) fun _ ready => ready.1
      refine (verify_keeps lineage_terms.stable (fun _ accounted => accounted) _).bind ?_
      intro verified
      obtain ⟨status,lockpid⟩ := verified
      dsimp only
      split
      · exact ending
      · exact ending

theorem unlockUucpLockfile_lineage {device : Option Path}
    (separate : Separate conf (getUucpLockDeviceFile conf device)) :
    Triple (lineage conf pid) (Accounted conf) (unlockUucpLockfile conf device)
      fun _ => Accounted conf := by
  refine (unlink_lock separate lineage_terms.stable fun _ accounted => accounted).bind ?_
  intro result
  rcases result with _ | _
  · exact .done (fun _ => lineage_terms.stable) (-1)
  · exact .done (fun _ => lineage_terms.stable) 0

end

/-- A run of the system with the record of its links. -/
structure Lineage extends System where
  linked : Links

namespace Lineage

def start : Lineage := ⟨.start .empty,fun _ => none⟩

def registry (s : Lineage) : Registry := ⟨⟨s.directory,s.alive⟩,s.linked⟩

/-- Every lock file holds the whole pid of the process that linked its temporary
file there. -/
def CompleteLocks (conf : LockConfig) (s : Lineage) : Prop := Complete conf s.directory s.linked

end Lineage

/-- The steps of `lockStep`, except that a process may unlock what it never locked. -/
def lineageStep (conf : LockConfig) (s : Lineage) : Event → Lineage
  | .start pid => ⟨lockStep conf s.toSystem (.start pid),s.linked⟩
  | .die pid => ⟨lockStep conf s.toSystem (.die pid),s.linked⟩
  | .create pid device => ⟨lockStep conf s.toSystem (.create pid device),s.linked⟩
  | .unlock pid device =>
    match s.processes pid with
    | some ⟨held,.idle⟩ =>
      ⟨s.put pid (some ⟨held,.unlocking device (unlockUucpLockfile conf device)⟩),s.linked⟩
    | _ => s
  | .proceed pid e =>
    match s.processes pid with
    | some ⟨_,.creating _ (.call c _)⟩ | some ⟨_,.unlocking _ (.call c _)⟩ =>
      ⟨lockStep conf s.toSystem (.proceed pid e),
        relink pid s.linked c (perform s.alive e s.directory c).1⟩
    | _ => s

def Apart (conf : LockConfig) : Event → Prop
  | .create _ device | .unlock _ device => Separate conf (getUucpLockDeviceFile conf device)
  | _ => True

def Follows (conf : LockConfig) (pid : Pid) (task : Task) (r : Registry) : Prop :=
  match task with
  | .idle => True
  | .creating _ rest => rest.Meets (lineage conf pid) (fun _ => Accounted conf) r
  | .unlocking _ rest => rest.Meets (lineage conf pid) (fun _ => Accounted conf) r

structure Traceable (conf : LockConfig) (s : Lineage) : Prop where
  accounted : Accounted conf s.registry
  follows : ∀ pid process, s.processes pid = some process → Follows conf pid process.task s.registry

variable {s : Lineage} {r : Registry}

theorem Follows.interfered {task : Task} {later : Registry} (follows : Follows conf pid task r)
    (between : (lineage conf pid).rely r later) : Follows conf pid task later := by
  cases task with
  | idle => trivial
  | creating device rest => exact Meets.interfered follows between
  | unlocking device rest => exact Meets.interfered follows between

theorem created_follows (held : List Path) (device : Option Path) {rest : Posix (Option Path)}
    (meets : rest.Meets (lineage conf pid) (fun _ => Accounted conf) r) :
    Follows conf pid (created held device rest).task r := by
  cases rest with
  | call c next => exact meets
  | done value => cases value <;> trivial

theorem unlocked_follows (held : List Path) (device : Option Path) {rest : Posix Int}
    (meets : rest.Meets (lineage conf pid) (fun _ => Accounted conf) r) :
    Follows conf pid (unlocked conf held device rest).task r := by
  cases rest with
  | call c next => exact meets
  | done value => trivial

theorem Traceable.put {d : Directory} {linked : Links} {process : Option Process}
    (traceable : Traceable conf s) (accounted : Accounted conf ⟨⟨d,s.alive⟩,linked⟩)
    (others : ∀ other, other ≠ pid → Untouched conf other s.directory d)
    (own : ∀ one, process = some one → Follows conf pid one.task ⟨⟨d,s.alive⟩,linked⟩) :
    Traceable conf ⟨System.put ⟨d,s.processes⟩ pid process,linked⟩ := by
  have firm : Accounted conf (Lineage.registry ⟨System.put ⟨d,s.processes⟩ pid process,linked⟩) :=
    ⟨accounted.sane,accounted.locks⟩
  refine ⟨firm,fun other one found => ?_⟩
  change (System.put ⟨d,s.processes⟩ pid process).processes other = some one at found
  by_cases mine : other = pid
  · subst mine
    rw [System.put_same] at found
    exact (own one found).interfered ⟨firm,.refl _ _ _⟩
  · rw [System.put_other _ _ mine] at found
    exact (traceable.follows other one found).interfered ⟨firm,others other mine⟩

theorem Traceable.become {process : Option Process} (traceable : Traceable conf s)
    (own : ∀ one, process = some one → Follows conf pid one.task s.registry) :
    Traceable conf ⟨s.put pid process,s.linked⟩ :=
  traceable.put ⟨traceable.accounted.sane,traceable.accounted.locks⟩ (fun _ _ => .refl _ _ _) own

theorem Traceable.step (traceable : Traceable conf s) {event : Event} (apart : Apart conf event) :
    Traceable conf (lineageStep conf s event) := by
  cases event with
  | start pid =>
    dsimp only [lineageStep,lockStep]
    split
    · refine traceable.become ?_
      intro one same
      cases same
      trivial
    · exact traceable
  | die pid => exact traceable.become fun _ none => nomatch none
  | create pid device =>
    dsimp only [lineageStep,lockStep]
    split
    · refine traceable.become ?_
      intro one same
      cases same
      exact createUucpLockfile_lineage apart s.registry traceable.accounted
    · exact traceable
  | unlock pid device =>
    dsimp only [lineageStep]
    split
    · refine traceable.become ?_
      intro one same
      cases same
      exact unlockUucpLockfile_lineage apart s.registry traceable.accounted
    · exact traceable
  | proceed pid e =>
    have acts (c : Call) : (lineage conf pid).act c s.registry (perform s.alive e s.directory c).1
        ⟨⟨(perform s.alive e s.directory c).2,s.alive⟩,
          relink pid s.linked c (perform s.alive e s.directory c).1⟩ := ⟨rfl,rfl,e,rfl⟩
    dsimp only [lineageStep]
    split
    · rename_i held device c next found
      obtain ⟨⟨accounted,others⟩,meets⟩ := Meets.proceed (traceable.follows pid _ found) (acts c)
      dsimp only [lockStep]
      rw [found]
      refine traceable.put accounted others ?_
      intro one same
      cases same
      exact created_follows held device meets
    · rename_i held device c next found
      obtain ⟨⟨accounted,others⟩,meets⟩ := Meets.proceed (traceable.follows pid _ found) (acts c)
      dsimp only [lockStep]
      rw [found]
      refine traceable.put accounted others ?_
      intro one same
      cases same
      exact unlocked_follows held device meets
    · exact traceable

theorem Lineage.start_traceable : Traceable conf .start := by
  refine ⟨⟨⟨?_,?_,?_⟩,?_⟩,fun _ _ none => nomatch none⟩
  · exact fun _ _ _ none => nomatch none
  · exact fun _ _ _ _ none => nomatch none
  · exact fun _ _ none => nomatch none
  · exact fun _ _ _ none => nomatch none

/-- Whatever processes lock and unlock which devices, in any interleaving, with
deaths and reused pids: a lock path that exists stands for the four bytes of the
pid of the process whose temporary file was linked there. -/
theorem locks_complete (conf : LockConfig) (events : List Event)
    (apart : ∀ event ∈ events, Apart conf event) :
    Machine.Throughout (lineageStep conf) (Lineage.CompleteLocks conf) .start events :=
  Machine.throughout_along (Traceable conf) (fun _ => Apart conf)
    (fun _ _ traceable apart => traceable.step apart) (fun _ traceable => traceable.accounted.locks)
    Lineage.start_traceable (Machine.along_of_forall _ apart)

/-- Process 1 dies between linking its lock and removing the other name of the
file, which the next process of that pid opens and writes again. -/
def rewritten : List Event :=
  [.start 1,.create 1 ttymxc0] ++ turns 1 3 ++ [.die 1,.start 1,.create 1 ttymxc0] ++ turns 1 8 ++
    [.unlock 1 ttymxc0] ++ turns 1 1

theorem locks_complete_rewritten :
    Machine.Throughout (lineageStep ⟨none,none⟩) (Lineage.CompleteLocks ⟨none,none⟩) .start
      rewritten := by
  have separate : Separate ⟨none,none⟩ (getUucpLockDeviceFile ⟨none,none⟩ ttymxc0) :=
    separate_of_not_prefix (by decide)
  refine locks_complete ⟨none,none⟩ rewritten ?_
  simp [rewritten,turns,Apart,separate]

end SerialIp
