import SerialIp.LockOwnership
import SerialIp.LockRuns

/-! One serial port, one process: two live processes never hold the same lock file
in a run where a lock is only removed as stale while it names no live process. -/
namespace SerialIp
open Library Library.Program

def System.world (s : System) : World := ⟨s.directory,s.alive⟩

/-- The step removes no lock of a live process as stale, and a device's lock file
is no temporary file. -/
def Careful (conf : LockConfig) (s : System) : Event → Prop
  | .create _ device => Separate conf (getUucpLockDeviceFile conf device)
  | .proceed pid _ =>
    match s.processes pid with
    | some ⟨_,.creating _ (.call c _)⟩ => Harmless conf pid c s.world
    | _ => True
  | _ => True

/-- Each lock file the process holds names it, and it goes on as its code says. -/
structure Abides (conf : LockConfig) (pid : Pid) (process : Process) (w : World) : Prop where
  held : ∀ path ∈ process.held, Separate conf path ∧ w.directory.Names path pid
  task : match process.task with
    | .idle => True
    | .creating _ rest => rest.Meets (creating conf pid) (Created conf pid) w
    | .unlocking device rest => rest = unlockUucpLockfile conf device ∧
      getUucpLockDeviceFile conf device ∈ process.held

structure Orderly (conf : LockConfig) (s : System) : Prop where
  sane : Sane conf s.directory
  abides : ∀ pid process, s.processes pid = some process → Abides conf pid process s.world

variable {conf : LockConfig} {s : System} {pid : Pid} {w : World}

theorem Abides.interfered {process : Process} {later : World} (abides : Abides conf pid process w)
    (sane : Sane conf later.directory) (untouched : Untouched conf pid w.directory later.directory)
    (keeps : Keeps conf pid w.directory later.directory) : Abides conf pid process later := by
  obtain ⟨held,task⟩ := abides
  refine ⟨fun path member => ?_,?_⟩
  · obtain ⟨separate,named⟩ := held path member
    exact ⟨separate,keeps path separate named⟩
  · split at task
    · trivial
    · exact task.interfered ⟨sane,untouched,keeps⟩
    · exact task

theorem created_abides {held : List Path} {device : Option Path} {rest : Posix (Option Path)}
    (owned : ∀ path ∈ held, Separate conf path ∧ w.directory.Names path pid)
    (meets : rest.Meets (creating conf pid) (Created conf pid) w) :
    Abides conf pid (created held device rest) w := by
  cases rest with
  | call c next => exact ⟨owned,meets⟩
  | done value =>
    cases value with
    | none => exact ⟨owned,trivial⟩
    | some path => exact ⟨List.forall_mem_cons.mpr ⟨meets.result,owned⟩,trivial⟩

theorem Orderly.put {d : Directory} {process : Option Process} (orderly : Orderly conf s)
    (sane : Sane conf d)
    (others : ∀ other, other ≠ pid → s.alive other = true →
      Untouched conf other s.directory d ∧ Keeps conf other s.directory d)
    (own : ∀ one, process = some one → Abides conf pid one ⟨d,s.alive⟩) :
    Orderly conf (System.put ⟨d,s.processes⟩ pid process) := by
  refine ⟨sane,fun other one found => ?_⟩
  by_cases mine : other = pid
  · subst mine
    rw [System.put_same] at found
    exact (own one found).interfered sane (.refl _ _ _) fun _ _ named => named
  · rw [System.put_other _ _ mine] at found
    obtain ⟨untouched,keeps⟩ := others other mine (Option.isSome_of_eq_some found)
    exact (orderly.abides other one found).interfered sane untouched keeps

theorem Orderly.become {process : Option Process} (orderly : Orderly conf s)
    (own : ∀ one, process = some one → Abides conf pid one s.world) :
    Orderly conf (s.put pid process) :=
  orderly.put orderly.sane (fun _ _ _ => ⟨.refl _ _ _,fun _ _ named => named⟩) own

theorem Orderly.creates {held : List Path} {device : Option Path} {c : Call}
    {next : c.Result → Posix (Option Path)} (orderly : Orderly conf s) (e : Circumstance)
    (found : s.processes pid = some ⟨held,.creating device (.call c next)⟩)
    (harmless : Harmless conf pid c s.world) :
    Orderly conf (System.put ⟨(perform s.alive e s.directory c).2,s.processes⟩ pid
      (some (created held device (next (perform s.alive e s.directory c).1)))) := by
  have abides := orderly.abides pid _ found
  have living : s.alive pid = true := Option.isSome_of_eq_some found
  have acts : (creating conf pid).act c s.world (perform s.alive e s.directory c).1
      ⟨(perform s.alive e s.directory c).2,s.alive⟩ := ⟨harmless,rfl,e,rfl⟩
  obtain ⟨⟨sane,others,locks⟩,meets⟩ := Meets.proceed abides.task acts
  refine orderly.put sane ?_ ?_
  · intro other different alive
    exact ⟨others other different,fun path => locks other path alive fun both => different both.1⟩
  · intro one same
    cases same
    refine created_abides (fun path member => ?_) meets
    obtain ⟨separate,named⟩ := abides.held path member
    exact ⟨separate,locks pid path living (fun both => both.2) separate named⟩

theorem Orderly.unlocks {held : List Path} {device : Option Path} {c : Call}
    {next : c.Result → Posix Int} (orderly : Orderly conf s) (e : Circumstance)
    (found : s.processes pid = some ⟨held,.unlocking device (.call c next)⟩) :
    Orderly conf (System.put ⟨(perform s.alive e s.directory c).2,s.processes⟩ pid
      (some (unlocked conf held device (next (perform s.alive e s.directory c).1)))) := by
  have abides := orderly.abides pid _ found
  have living : s.alive pid = true := Option.isSome_of_eq_some found
  obtain ⟨code,member⟩ := abides.task
  obtain ⟨separate,named⟩ := abides.held _ member
  have meets := unlockUucpLockfile_given separate s.world ⟨orderly.sane,named⟩
  rw [unlockUucpLockfile_eq] at code meets
  cases code
  have acts : (unlocking conf pid (getUucpLockDeviceFile conf device)).act
      (.unlink (getUucpLockDeviceFile conf device)) s.world
      (perform s.alive e s.directory (.unlink (getUucpLockDeviceFile conf device))).1
      ⟨(perform s.alive e s.directory (.unlink (getUucpLockDeviceFile conf device))).2,s.alive⟩ :=
    ⟨trivial,rfl,e,rfl⟩
  obtain ⟨⟨sane,others,locks⟩,_⟩ := meets.proceed acts
  refine orderly.put sane ?_ ?_
  · intro other different alive
    exact ⟨others other different,fun path => locks other path alive fun both => different both.1⟩
  · intro one same
    cases same
    refine ⟨fun path kept => ?_,trivial⟩
    obtain ⟨still,different⟩ := List.mem_filter.mp kept
    obtain ⟨apart,names⟩ := abides.held path still
    exact ⟨apart,locks pid path living (fun both => of_decide_eq_true different both.2) apart names⟩

theorem Orderly.step (orderly : Orderly conf s) {event : Event} (careful : Careful conf s event) :
    Orderly conf (lockStep conf s event) := by
  cases event with
  | start pid =>
    dsimp only [lockStep]
    split
    · refine orderly.become ?_
      intro one same
      cases same
      exact ⟨fun _ member => absurd member List.not_mem_nil,trivial⟩
    · exact orderly
  | die pid => exact orderly.become fun _ none => nomatch none
  | create pid device =>
    dsimp only [lockStep]
    split
    · rename_i held found
      refine orderly.become ?_
      intro one same
      cases same
      exact ⟨(orderly.abides pid _ found).held,
        createUucpLockfile_created careful s.world orderly.sane⟩
    · exact orderly
  | unlock pid device =>
    dsimp only [lockStep]
    split
    · rename_i held found
      split
      · rename_i member
        refine orderly.become ?_
        intro one same
        cases same
        exact ⟨(orderly.abides pid _ found).held,rfl,member⟩
      · exact orderly
    · exact orderly
  | proceed pid e =>
    dsimp only [lockStep,Careful] at careful ⊢
    split
    · rename_i found
      rw [found] at careful
      exact orderly.creates e found careful
    · rename_i found
      exact orderly.unlocks e found
    · exact orderly

theorem Orderly.exclusive (orderly : Orderly conf s) : s.Exclusive := by
  intro path first second mine yours
  obtain ⟨one,found,holds⟩ := mine
  obtain ⟨two,other,also⟩ := yours
  obtain ⟨_,named⟩ := (orderly.abides first one found).held path holds
  obtain ⟨_,again⟩ := (orderly.abides second two other).held path also
  exact named.unique again

theorem start_orderly {d : Directory} (clean : ∀ pid, d.names (uucpTmpFilename conf pid) = none) :
    Orderly conf (.start d) := by
  have absent {pid : Pid} {file : Nat} (found : d.names (uucpTmpFilename conf pid) = some file) :
      False := by
    rw [clean] at found
    contradiction
  refine ⟨⟨?_,?_,?_⟩,fun _ _ none => nomatch none⟩
  · exact fun _ _ _ found _ => (absent found).elim
  · exact fun _ _ _ _ _ found => (absent found).elim
  · exact fun _ _ found => (absent found).elim

/-- In any run of any processes, from any directory without temporary files: while
every lock removed as stale names no live process, no two live processes ever hold
one lock file. -/
theorem exclusive_while_stale (conf : LockConfig) (d : Directory) (events : List Event)
    (clean : ∀ pid, d.names (uucpTmpFilename conf pid) = none)
    (careful : Machine.Along (lockStep conf) (Careful conf) (.start d) events) :
    Machine.Throughout (lockStep conf) System.Exclusive (.start d) events :=
  Machine.throughout_along (Orderly conf) (Careful conf) (fun _ _ orderly => orderly.step)
    (fun _ => Orderly.exclusive) (start_orderly clean) careful

def turns (pid : Pid) (count : Nat) : List Event := List.replicate count (.proceed pid ⟨none,4,0⟩)

def ttymxc0 : Option Path := some "/dev/ttymxc0".toList

/-- A process dies holding the lock, another one takes it over. -/
def takeover : List Event :=
  [.start 1,.create 1 ttymxc0] ++ turns 1 8 ++ [.die 1,.start 2,.create 2 ttymxc0] ++ turns 2 14

theorem exclusive_while_stale_takeover :
    Machine.Throughout (lockStep ⟨none,none⟩) System.Exclusive (.start .empty) takeover := by
  have separate : Separate ⟨none,none⟩ (getUucpLockDeviceFile ⟨none,none⟩ ttymxc0) :=
    separate_of_not_prefix (by decide)
  refine exclusive_while_stale ⟨none,none⟩ .empty takeover (fun _ => rfl) ?_
  have stale (s : System) (dead : s.directory.owner? (getUucpLockDeviceFile ⟨none,none⟩ ttymxc0) = some 1)
      (gone : s.alive 1 = false) : Harmless ⟨none,none⟩ 2
        (.unlink (getUucpLockDeviceFile ⟨none,none⟩ ttymxc0)) s.world := by
    refine Or.inr fun owner found => ?_
    rw [← Option.some.inj (dead.symm.trans found)]
    exact gone
  exact ⟨trivial,separate,trivial,trivial,trivial,Or.inl rfl,trivial,trivial,trivial,trivial,
    trivial,trivial,separate,trivial,trivial,trivial,trivial,trivial,trivial,trivial,
    stale _ rfl rfl,trivial,Or.inl rfl,trivial,trivial,trivial,trivial,trivial⟩

/-- Process 1 dies holding the lock. Processes 2 and 3 both find it stale; 2
removes it and locks, then 3 removes the lock of 2 and locks too. -/
def race : List Event :=
  [.start 1,.create 1 ttymxc0] ++ turns 1 8 ++
    [.die 1,.start 2,.start 3,.create 2 ttymxc0,.create 3 ttymxc0] ++
    turns 2 7 ++ turns 3 7 ++ turns 2 7 ++ turns 3 7

theorem race_shares_lock :
    ¬Machine.Throughout (lockStep ⟨none,none⟩) System.Exclusive (.start .empty) race := by
  intro throughout
  have exclusive := (Machine.throughout_iff_prefixes _ _ _ _).mp throughout race (List.prefix_refl _)
  have same : (2 : Pid) = 3 := exclusive (getUucpLockDeviceFile ⟨none,none⟩ ttymxc0) 2 3
    ⟨_,rfl,by decide⟩ ⟨_,rfl,by decide⟩
  exact absurd same (by decide)

end SerialIp
