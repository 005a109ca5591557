import SerialIp.Daemon
import Mathlib.Tactic.IntervalCases

/-! What mydaemon makes of the process that it returns in, and that it returns in one only. -/
namespace SerialIp.Daemon
open Library Library.Program Library.Kernel

/-- What no call but fork() and setsid() changes; only a session leader gets a terminal. -/
structure Stays (before p : Own) : Prop where
  pid : p.pid = before.pid
  pgid : p.pgid = before.pgid
  sid : p.sid = before.sid
  terminal : before.pid ≠ before.sid → p.terminal = before.terminal
  children : p.children = before.children
  ignored : before.ignored ⊆ p.ignored
  openMax : p.openMax = before.openMax
  logged : before.logged = true → p.logged = true

theorem Stays.refl (p : Own) : Stays p p :=
  ⟨rfl,rfl,rfl,fun _ => rfl,rfl,List.Subset.refl _,rfl,id⟩

theorem Stays.trans {p q r : Own} (first : Stays p q) (second : Stays q r) : Stays p r where
  pid := second.pid.trans first.pid
  pgid := second.pgid.trans first.pgid
  sid := second.sid.trans first.sid
  terminal other := by
    refine (second.terminal ?_).trans (first.terminal other)
    rw [first.pid,first.sid]
    exact other
  children := second.children.trans first.children
  ignored := List.Subset.trans first.ignored second.ignored
  openMax := second.openMax.trans first.openMax
  logged told := second.logged (first.logged told)

/-- The standard descriptors are not what the starter had there. -/
def Fine (p : Own) : Prop :=
  ∀ fd < 3, ∀ file, p.descriptors fd = some file →
    file = .path DAEMON_STDIN ∨ file = .path DAEMON_STDOUT ∨ file = .log

def DaemonCall.Plain : DaemonCall → Prop
  | .fork | .setsid => False
  | .openFile file | .freopen file _ => file = DAEMON_STDIN ∨ file = DAEMON_STDOUT
  | _ => True

namespace Own
variable {p : Own} {fd : Nat} {file : File}

theorem opened_stays (p : Own) (fd : Nat) (file : File) : Stays p (p.opened fd file) :=
  ⟨rfl,rfl,rfl,fun _ => rfl,rfl,List.Subset.refl _,rfl,id⟩

theorem closed_stays (p : Own) (fd : Nat) : Stays p (p.closed fd) :=
  ⟨rfl,rfl,rfl,fun _ => rfl,rfl,List.Subset.refl _,rfl,id⟩

theorem acquire_stays (p : Own) (outcome : Outcome) : Stays p (p.acquire outcome) := by
  cases outcome with
  | fails | gives n => exact .refl p
  | acquires => exact ⟨rfl,rfl,rfl,fun other => by simp [acquire,other],rfl,List.Subset.refl _,rfl,id⟩

theorem opened_fine (fine : Fine p) (fd : Nat)
    (known : file = .path DAEMON_STDIN ∨ file = .path DAEMON_STDOUT ∨ file = .log) :
    Fine (p.opened fd file) := by
  intro other small found there
  by_cases same : other = fd
  · subst same
    have new : (p.opened other file).descriptors other = some file := Function.update_self ..
    rw [new] at there
    exact Option.some.inj there ▸ known
  · have old : (p.opened fd file).descriptors other = p.descriptors other :=
      Function.update_of_ne same _ _
    exact fine other small found (old ▸ there)

theorem closed_fine (fine : Fine p) (fd : Nat) : Fine (p.closed fd) := by
  intro other small found there
  by_cases same : other = fd
  · subst same
    have none : (p.closed other).descriptors other = none := Function.update_self ..
    rw [none] at there
    cases there
  · have old : (p.closed fd).descriptors other = p.descriptors other := Function.update_of_ne same _ _
    exact fine other small found (old ▸ there)

theorem openFile_cases (name : String) (p : Own) (outcome : Outcome) :
    p.openFile name outcome = (-1,p) ∨ ∃ fd : Nat, p.lowest = some fd ∧
      p.openFile name outcome = ((fd : Int),p.opened fd (.path name)) := by
  unfold openFile
  cases outcome with
  | fails => exact Or.inl rfl
  | gives n | acquires =>
    cases found : p.lowest with
    | none => exact Or.inl rfl
    | some fd => exact Or.inr ⟨fd,rfl,rfl⟩

theorem freopen_cases (name : String) (stream : Nat) (p : Own) (outcome : Outcome) :
    p.freopen name stream outcome = (false,p.closed stream) ∨
      ∃ fd : Nat, (p.closed stream).lowest = some fd ∧
        p.freopen name stream outcome =
          (true,((p.closed stream).opened fd (.path name)).acquire outcome) := by
  unfold freopen
  cases outcome with
  | fails => exact Or.inl rfl
  | gives n | acquires =>
    dsimp only
    cases found : (p.closed stream).lowest with
    | none => exact Or.inl rfl
    | some fd => exact Or.inr ⟨fd,rfl,rfl⟩

theorem syslog_cases (p : Own) (outcome : Outcome) :
    p.syslog outcome = {p with logged := true} ∨
      ∃ fd, p.syslog outcome = {p.opened fd .log with log := some fd, logged := true} := by
  unfold syslog
  cases outcome with
  | fails => exact Or.inl rfl
  | gives n | acquires =>
    dsimp only
    split
    · exact Or.inr ⟨_,rfl⟩
    · exact Or.inl rfl

theorem closelog_cases (p : Own) :
    p.log = none ∧ p.closelog = p ∨ ∃ fd, p.log = some fd ∧ p.closelog = {p.closed fd with log := none} := by
  unfold closelog
  cases p.log with
  | none => exact Or.inl ⟨rfl,rfl⟩
  | some fd => exact Or.inr ⟨fd,rfl,rfl⟩

end Own

section
variable {p after : Own}

theorem answers_act {c : DaemonCall} {result : c.Result} (answers : kernel.Answers c p result after)
    (other : c ≠ .fork) :
    ∃ outcome, (act c outcome p ()).1 = .answers (result,after) := by
  obtain ⟨outcome,_,acts⟩ | ⟨outcome,copies⟩ := answers
  · exact ⟨outcome,acts⟩
  · cases c with
    | fork => contradiction
    | getppid | sigaction _ | setsid | close _ | openFile _ | freopen _ _ | errno | syslog | closelog | sysconf
    | chdir _ | umask _ | exit _ => cases copies

/-- For calls that have one way to end. -/
theorem answers_sure {c : DaemonCall} {result : c.Result} {next : Own}
    (answers : kernel.Answers c p result after) (other : c ≠ .fork)
    (sure : ∀ outcome, (act c outcome p ()).1.own = some next) : after = next := by
  obtain ⟨outcome,acts⟩ := answers_act answers other
  have ends := sure outcome
  rw [acts] at ends
  exact Option.some.inj ends

theorem answers_close {fd : Nat} {result : Int} (answers : kernel.Answers (.close fd) p result after) :
    after = p.closed fd :=
  answers_sure answers nofun fun _ => rfl

theorem answers_closelog {result : Unit} (answers : kernel.Answers .closelog p result after) :
    after = p.closelog :=
  answers_sure answers nofun fun _ => rfl

theorem answers_umask {mask : Nat} {result : Unit} (answers : kernel.Answers (.umask mask) p result after) :
    after = {p with umask := mask} :=
  answers_sure answers nofun fun _ => rfl

theorem answers_sigaction {signal : Signal} {result : Unit}
    (answers : kernel.Answers (.sigaction signal) p result after) : after = p.ignore signal :=
  answers_sure answers nofun fun _ => rfl

theorem answers_stays {c : DaemonCall} {result : c.Result} (plain : c.Plain)
    (answers : kernel.Answers c p result after) : Stays p after ∧ (Fine p → Fine after) := by
  have other : c ≠ .fork := by
    intro same
    rw [same] at plain
    exact plain
  obtain ⟨outcome,acts⟩ := answers_act answers other
  cases c with
  | fork | setsid => exact plain.elim
  | exit status => cases acts
  | getppid =>
    obtain ⟨_,rfl⟩ := Prod.mk.inj (Reply.answers.inj acts)
    exact ⟨.refl p,id⟩
  | umask mask =>
    obtain rfl := answers_umask answers
    exact ⟨⟨rfl,rfl,rfl,fun _ => rfl,rfl,List.Subset.refl _,rfl,id⟩,id⟩
  | sigaction signal =>
    obtain rfl := answers_sigaction answers
    exact ⟨⟨rfl,rfl,rfl,fun _ => rfl,rfl,List.subset_cons_self _ _,rfl,id⟩,id⟩
  | close fd =>
    obtain rfl := answers_close answers
    exact ⟨p.closed_stays fd,fun fine => Own.closed_fine fine fd⟩
  | errno =>
    cases outcome with
    | fails | gives n | acquires =>
      obtain ⟨_,rfl⟩ := Prod.mk.inj (Reply.answers.inj acts)
      exact ⟨.refl p,id⟩
  | sysconf =>
    cases outcome with
    | fails | gives n | acquires =>
      obtain ⟨_,rfl⟩ := Prod.mk.inj (Reply.answers.inj acts)
      exact ⟨⟨rfl,rfl,rfl,fun _ => rfl,rfl,List.Subset.refl _,rfl,id⟩,id⟩
  | chdir dir =>
    cases outcome with
    | fails =>
      obtain ⟨_,rfl⟩ := Prod.mk.inj (Reply.answers.inj acts)
      exact ⟨.refl p,id⟩
    | gives n | acquires =>
      obtain ⟨_,rfl⟩ := Prod.mk.inj (Reply.answers.inj acts)
      exact ⟨⟨rfl,rfl,rfl,fun _ => rfl,rfl,List.Subset.refl _,rfl,id⟩,id⟩
  | openFile file =>
    have acts : p.openFile file outcome = (result,after) := Reply.answers.inj acts
    obtain fails | ⟨fd,_,opens⟩ := p.openFile_cases file outcome
    · obtain ⟨_,rfl⟩ := Prod.mk.inj (fails.symm.trans acts)
      exact ⟨.refl p,id⟩
    · obtain ⟨_,rfl⟩ := Prod.mk.inj (opens.symm.trans acts)
      refine ⟨p.opened_stays fd _,fun fine => Own.opened_fine fine fd ?_⟩
      exact plain.imp (congrArg File.path) fun console => Or.inl (congrArg File.path console)
  | freopen file stream =>
    have acts : p.freopen file stream outcome = (result,after) := Reply.answers.inj acts
    obtain fails | ⟨fd,_,opens⟩ := p.freopen_cases file stream outcome
    · obtain ⟨_,rfl⟩ := Prod.mk.inj (fails.symm.trans acts)
      exact ⟨p.closed_stays stream,fun fine => Own.closed_fine fine stream⟩
    · obtain ⟨_,rfl⟩ := Prod.mk.inj (opens.symm.trans acts)
      refine ⟨((p.closed_stays stream).trans ((p.closed stream).opened_stays fd _)).trans
        (Own.acquire_stays _ outcome),fun fine => ?_⟩
      have fine := Own.opened_fine (Own.closed_fine fine stream) fd
        (plain.imp (congrArg File.path) fun console => Or.inl (congrArg File.path console))
      cases outcome <;> exact fine
  | syslog =>
    obtain ⟨_,rfl⟩ := Prod.mk.inj (Reply.answers.inj acts)
    obtain quiet | ⟨fd,opens⟩ := p.syslog_cases outcome
    · rw [quiet]
      exact ⟨⟨rfl,rfl,rfl,fun _ => rfl,rfl,List.Subset.refl _,rfl,fun _ => rfl⟩,id⟩
    · rw [opens]
      exact ⟨⟨rfl,rfl,rfl,fun _ => rfl,rfl,List.Subset.refl _,rfl,fun _ => rfl⟩,
        fun fine => Own.opened_fine fine fd (Or.inr (Or.inr rfl))⟩
  | closelog =>
    obtain rfl := answers_closelog answers
    obtain ⟨_,quiet⟩ | ⟨fd,_,closes⟩ := p.closelog_cases
    · rw [quiet]
      exact ⟨.refl p,id⟩
    · rw [closes]
      exact ⟨⟨rfl,rfl,rfl,fun _ => rfl,rfl,List.Subset.refl _,rfl,id⟩,fun fine => Own.closed_fine fine fd⟩

/-- Only a process without a child forks. -/
def Due : DaemonCall → Own → Prop
  | .fork,p => p.children = 0
  | .setsid,_ => True
  | c,_ => c.Plain

theorem due_plain {c : DaemonCall} (plain : c.Plain) : Due c p := by
  cases c with
  | fork | setsid => exact plain.elim
  | getppid | sigaction _ | close _ | openFile _ | freopen _ _ | errno | syslog | closelog | sysconf | chdir _
  | umask _ | exit _ => exact plain

theorem stable (assertion : Own → Prop) : kernel.Stable assertion := nofun

theorem owes_call {α : Type} {post : α → Own → Prop} {c : DaemonCall} {second : c.Result → Detaching α}
    (now : Due c p) (rest : ∀ result after, kernel.Answers c p result after →
      kernel.Owes Due post (second result) after) : kernel.Owes Due post (invoke c >>= second) p :=
  Owes.call_deaf nofun now rest

theorem owes_done {α : Type} {post : α → Own → Prop} {value : α} (now : post value p) :
    kernel.Owes Due post (.done value) p := Owes.done (stable _) now

theorem plain_stays {α : Type} {program : Detaching α} (plain : program.Only DaemonCall.Plain) :
    kernel.Owes Due (fun _ => Stays p) program p :=
  Owes.frame (stable _) (.refl p) plain (fun _ _ plain _ => due_plain plain)
    fun _ _ _ _ plain stays answers => stays.trans (answers_stays plain answers).1

theorem plain_fine {α : Type} {program : Detaching α} (plain : program.Only DaemonCall.Plain)
    (fine : Fine p) : kernel.Owes Due (fun _ => Fine) program p :=
  Owes.frame (stable _) fine plain (fun _ _ plain _ => due_plain plain)
    fun _ _ _ _ plain fine answers => (answers_stays plain answers).2 fine

theorem plain_logged {α : Type} {program : Detaching α} (plain : program.Only DaemonCall.Plain)
    (told : p.logged = true) : kernel.Owes Due (fun _ after => after.logged = true) program p :=
  (plain_stays plain).mono fun _ _ stays => stays.logged told

theorem reopenFd_plain {file : String} (known : file = DAEMON_STDIN ∨ file = DAEMON_STDOUT) :
    (reopenFd file).Only DaemonCall.Plain := by
  unfold reopenFd
  refine ⟨known,fun fd => ?_⟩
  change (if fd = -1 then _ else _ : Detaching Unit).Only DaemonCall.Plain
  split
  · exact ⟨trivial,fun _ => ⟨Or.inl rfl,fun _ => ⟨trivial,fun _ => trivial⟩⟩⟩
  · exact trivial

theorem reopenFile_plain {file : String} (known : file = DAEMON_STDIN ∨ file = DAEMON_STDOUT)
    (stream : Nat) : (reopenFile file stream).Only DaemonCall.Plain := by
  unfold reopenFile
  refine ⟨known,fun fp => ?_⟩
  change (if fp = false then _ else _ : Detaching Unit).Only DaemonCall.Plain
  split
  · exact ⟨trivial,fun _ => ⟨Or.inl rfl,fun _ => ⟨trivial,fun _ => trivial⟩⟩⟩
  · exact trivial

theorem closeFrom_plain (fd count : Nat) : (closeFrom fd count).Only DaemonCall.Plain := by
  induction count generalizing fd with
  | zero => exact trivial
  | succ count ih => exact ⟨trivial,fun _ => ih (fd+1)⟩

theorem systemErrorlog_plain : systemErrorlog.Only DaemonCall.Plain := by
  refine Only.bind (.invoke trivial) fun errno => ?_
  split
  · exact .invoke trivial
  · exact trivial

theorem closeAllFds_plain (start : Nat) : (closeAllFds start).Only DaemonCall.Plain := by
  refine Only.bind (.invoke trivial) fun openMax => ?_
  split
  · refine Only.bind systemErrorlog_plain fun _ => ?_
    exact Only.bind (.invoke trivial) fun _ => closeFrom_plain _ _
  · exact Only.bind (.invoke trivial) fun _ => closeFrom_plain _ _

theorem Own.lowest_eq {fd k : Nat} (found : p.lowest = some fd) (free : p.descriptors k = none)
    (taken : ∀ i < k, p.descriptors i ≠ none) : fd = k := by
  unfold lowest at found
  obtain ⟨here,_,below⟩ := List.find?_range_eq_some.mp found
  obtain less | same | more := Nat.lt_trichotomy fd k
  · exact absurd (of_decide_eq_true here) (taken fd less)
  · exact same
  · have none := below k more
    simp [free] at none

/-- Unless syslog() had to complain, these are the descriptors. -/
def Placed (table : Nat → Option File) (p : Own) : Prop :=
  p.logged = true ∨ p.log = none ∧ p.descriptors = table

theorem reopenFd_placed {table : Nat → Option File} {file : String} {k : Nat}
    (known : file = DAEMON_STDIN ∨ file = DAEMON_STDOUT) (free : table k = none)
    (taken : ∀ i < k, table i ≠ none) (placed : Placed table p) :
    kernel.Owes Due (fun _ => Placed (Function.update table k (some (.path file)))) (reopenFd file) p := by
  obtain told | ⟨unused,rfl⟩ := placed
  · exact (plain_logged (reopenFd_plain known) told).mono fun _ _ told => Or.inl told
  refine owes_call known fun fd after answers => ?_
  obtain ⟨outcome,acts⟩ := answers_act answers nofun
  have acts : p.openFile file outcome = (fd,after) := Reply.answers.inj acts
  obtain fails | ⟨lowest,found,opens⟩ := p.openFile_cases file outcome
  · obtain ⟨rfl,rfl⟩ := Prod.mk.inj (fails.symm.trans acts)
    rw [if_pos rfl]
    refine owes_call trivial fun _ after answers => ?_
    obtain ⟨outcome,acts⟩ := answers_act answers nofun
    obtain ⟨_,rfl⟩ := Prod.mk.inj (Reply.answers.inj acts)
    have told : (p.syslog outcome).logged = true := by
      obtain quiet | ⟨fd,opens⟩ := p.syslog_cases outcome
      · rw [quiet]
      · rw [opens]
    refine (plain_logged ?_ told).mono fun _ _ told => Or.inl told
    exact ⟨Or.inl rfl,fun _ => ⟨trivial,fun _ => trivial⟩⟩
  · obtain ⟨rfl,rfl⟩ := Prod.mk.inj (opens.symm.trans acts)
    obtain rfl := Own.lowest_eq found free taken
    rw [if_neg (by omega)]
    exact owes_done (Or.inr ⟨unused,rfl⟩)

theorem reopenFile_placed {table : Nat → Option File} {file : String} {k : Nat}
    (known : file = DAEMON_STDIN ∨ file = DAEMON_STDOUT)
    (taken : ∀ i < k, table i ≠ none) (placed : Placed table p) :
    kernel.Owes Due (fun _ => Placed (Function.update table k (some (.path file))))
      (reopenFile file k) p := by
  obtain told | ⟨unused,rfl⟩ := placed
  · exact (plain_logged (reopenFile_plain known k) told).mono fun _ _ told => Or.inl told
  refine owes_call known fun fp after answers => ?_
  obtain ⟨outcome,acts⟩ := answers_act answers nofun
  have acts : p.freopen file k outcome = (fp,after) := Reply.answers.inj acts
  obtain fails | ⟨lowest,found,opens⟩ := p.freopen_cases file k outcome
  · obtain ⟨rfl,rfl⟩ := Prod.mk.inj (fails.symm.trans acts)
    rw [if_pos rfl]
    refine owes_call trivial fun _ after answers => ?_
    obtain ⟨outcome,acts⟩ := answers_act answers nofun
    obtain ⟨_,rfl⟩ := Prod.mk.inj (Reply.answers.inj acts)
    have told : ((p.closed k).syslog outcome).logged = true := by
      obtain quiet | ⟨fd,opens⟩ := (p.closed k).syslog_cases outcome
      · rw [quiet]
      · rw [opens]
    refine (plain_logged ?_ told).mono fun _ _ told => Or.inl told
    exact ⟨Or.inl rfl,fun _ => ⟨trivial,fun _ => trivial⟩⟩
  · obtain ⟨rfl,rfl⟩ := Prod.mk.inj (opens.symm.trans acts)
    have free : (p.closed k).descriptors k = none := Function.update_self ..
    have lower : ∀ i < k, (p.closed k).descriptors i ≠ none := by
      intro i less
      have old : (p.closed k).descriptors i = p.descriptors i := Function.update_of_ne (by omega) _ _
      rw [old]
      exact taken i less
    obtain rfl := Own.lowest_eq found free lower
    rw [if_neg (by simp)]
    refine owes_done (Or.inr ⟨?_,?_⟩)
    · cases outcome <;> exact unused
    · have replaced : Function.update (Function.update p.descriptors lowest none) lowest
          (some (.path file)) = Function.update p.descriptors lowest (some (.path file)) :=
        Function.update_idem ..
      cases outcome <;> exact replaced

/-- Unless syslog() had to complain, each standard descriptor is where it belongs. -/
def Standard (p : Own) : Prop :=
  p.logged = true ∨ p.log = none ∧ p.descriptors 0 = some (.path DAEMON_STDIN) ∧
    p.descriptors 1 = some (.path DAEMON_STDOUT) ∧ p.descriptors 2 = some (.path DAEMON_STDERR)

theorem reopenStdfds_plain : reopenStdfds.Only DaemonCall.Plain := by
  have null : DAEMON_STDIN = DAEMON_STDIN ∨ DAEMON_STDIN = DAEMON_STDOUT := Or.inl rfl
  have console : DAEMON_STDOUT = DAEMON_STDIN ∨ DAEMON_STDOUT = DAEMON_STDOUT := Or.inr rfl
  refine Only.bind (.invoke trivial) fun _ => ?_
  refine Only.bind (.invoke trivial) fun _ => ?_
  refine Only.bind (.invoke trivial) fun _ => ?_
  refine Only.bind (reopenFd_plain null) fun _ => ?_
  refine Only.bind (reopenFile_plain null 0) fun _ => ?_
  refine Only.bind (reopenFd_plain console) fun _ => ?_
  refine Only.bind (reopenFile_plain console 1) fun _ => ?_
  exact Only.bind (reopenFd_plain console) fun _ => reopenFile_plain console 2

theorem reopenStdfds_standard (unused : p.log = none) :
    kernel.Owes Due (fun _ after => Fine after ∧ Standard after) reopenStdfds p := by
  unfold reopenStdfds
  refine owes_call trivial fun _ after answers => ?_
  obtain rfl := answers_close answers
  refine owes_call trivial fun _ after answers => ?_
  obtain rfl := answers_close answers
  refine owes_call trivial fun _ after answers => ?_
  obtain rfl := answers_close answers
  have null : DAEMON_STDIN = DAEMON_STDIN ∨ DAEMON_STDIN = DAEMON_STDOUT := Or.inl rfl
  have console : DAEMON_STDOUT = DAEMON_STDIN ∨ DAEMON_STDOUT = DAEMON_STDOUT := Or.inr rfl
  refine Owes.and (plain_fine (((reopenStdfds_plain.2 0).2 0).2 0) ?_) ?_
  · intro fd small file found
    have none : (((p.closed 0).closed 1).closed 2).descriptors fd = none := by
      simp only [Own.closed,Function.update_apply]
      interval_cases fd <;> rfl
    rw [none] at found
    cases found
  · have placed : Placed (((p.closed 0).closed 1).closed 2).descriptors (((p.closed 0).closed 1).closed 2) :=
      Or.inr ⟨unused,rfl⟩
    refine Owes.bind (reopenFd_placed (k := 0) null ?_ ?_ placed) fun _ q placed => ?_
    · rfl
    · omega
    refine Owes.bind (reopenFile_placed (k := 0) null ?_ placed) fun _ q placed => ?_
    · omega
    refine Owes.bind (reopenFd_placed (k := 1) console ?_ ?_ placed) fun _ q placed => ?_
    · rfl
    · intro i less
      interval_cases i
      simp
    refine Owes.bind (reopenFile_placed (k := 1) console ?_ placed) fun _ q placed => ?_
    · intro i less
      interval_cases i
      simp
    refine Owes.bind (reopenFd_placed (k := 2) console ?_ ?_ placed) fun _ q placed => ?_
    · rfl
    · intro i less
      interval_cases i <;> simp
    refine Owes.mono (reopenFile_placed (k := 2) console ?_ placed) fun _ q placed => ?_
    · intro i less
      interval_cases i <;> simp
    obtain told | ⟨unused,same⟩ := placed
    · exact Or.inl told
    · rw [Standard,same]
      exact Or.inr ⟨unused,by simp,by simp,by simp [DAEMON_STDERR]⟩

/-- The loop closes its descriptors and does nothing else. -/
theorem closeFrom_closes (fd count : Nat) : kernel.Owes Due (fun _ after => after = {p with
    descriptors := fun other => if fd ≤ other ∧ other < fd+count then none else p.descriptors other})
    (closeFrom fd count) p := by
  induction count generalizing fd p with
  | zero =>
    have same : (fun other => if fd ≤ other ∧ other < fd+0 then none else p.descriptors other) =
        p.descriptors := by
      funext other
      rw [if_neg (by omega)]
    rw [same]
    exact owes_done rfl
  | succ count ih =>
    refine owes_call trivial fun _ q answers => ?_
    obtain rfl := answers_close answers
    refine (ih (fd+1)).mono fun _ after closed => ?_
    rw [closed]
    have same : (fun other => if fd+1 ≤ other ∧ other < fd+1+count then none
        else (p.closed fd).descriptors other) =
        fun other => if fd ≤ other ∧ other < fd+(count+1) then none else p.descriptors other := by
      funext other
      simp only [Own.closed,Function.update_apply]
      split_ifs <;> first | rfl | omega
    rw [same]
    rfl

theorem answers_sysconf {result : Int} (answers : kernel.Answers .sysconf p result after) :
    result = -1 ∧ after = {p with limited := false} ∨
      result = p.openMax ∧ after = {p with limited := true} := by
  obtain ⟨outcome,acts⟩ := answers_act answers nofun
  cases outcome with
  | fails =>
    obtain ⟨rfl,rfl⟩ := Prod.mk.inj (Reply.answers.inj acts)
    exact Or.inl ⟨rfl,rfl⟩
  | gives n | acquires =>
    obtain ⟨rfl,rfl⟩ := Prod.mk.inj (Reply.answers.inj acts)
    exact Or.inr ⟨rfl,rfl⟩

theorem answers_syslog {result : Unit} (answers : kernel.Answers .syslog p result after) :
    after.logged = true ∧ after.limited = p.limited := by
  obtain ⟨outcome,acts⟩ := answers_act answers nofun
  obtain ⟨_,rfl⟩ := Prod.mk.inj (Reply.answers.inj acts)
  obtain quiet | ⟨fd,opens⟩ := p.syslog_cases outcome
  · rw [quiet]
    exact ⟨rfl,rfl⟩
  · rw [opens]
    exact ⟨rfl,rfl⟩

theorem answers_errno {result : Int} (answers : kernel.Answers .errno p result after) : after = p := by
  obtain ⟨outcome,acts⟩ := answers_act answers nofun
  cases outcome with
  | fails | gives n | acquires => exact (Prod.mk.inj (Reply.answers.inj acts)).2.symm

theorem systemErrorlog_standard (standard : Standard p) :
    kernel.Owes Due (fun _ after => Standard after ∧ after.limited = p.limited) systemErrorlog p := by
  refine owes_call trivial fun errno q answers => ?_
  rw [answers_errno answers]
  split
  · refine owes_call trivial fun _ after answers => ?_
    obtain ⟨told,same⟩ := answers_syslog answers
    exact owes_done ⟨Or.inl told,same⟩
  · exact owes_done ⟨standard,rfl⟩

/-- The end of close_all_fds. -/
theorem closelog_closes (standard : Standard p) (count : Nat) :
    kernel.Owes Due (fun _ after => Standard after ∧ after.limited = p.limited ∧
      ∀ fd, 3 ≤ fd → fd < 3+count → after.descriptors fd = none) (do
        closelog
        closeFrom 3 count) p := by
  refine owes_call trivial fun _ r answers => ?_
  have closelog := answers_closelog answers
  refine (closeFrom_closes 3 count).mono fun _ after closed => ?_
  subst closed closelog
  have known : p.closelog.limited = p.limited ∧ p.closelog.logged = p.logged := by
    obtain ⟨_,same⟩ | ⟨fd,_,same⟩ := p.closelog_cases <;> rw [same] <;> exact ⟨rfl,rfl⟩
  refine ⟨?_,known.1,fun fd high low => if_pos ⟨high,low⟩⟩
  refine standard.imp (fun told => known.2.trans told) fun ⟨unused,first,second,third⟩ => ?_
  have idle : p.closelog = p := by
    unfold Own.closelog
    rw [unused]
  rw [idle]
  exact ⟨unused,first,second,third⟩

/-- No descriptor behind the standard ones is left, as far as the limit is known. -/
def Closed (p : Own) : Prop :=
  ∀ fd, 3 ≤ fd → fd < p.openMax → fd < NOFILE ∨ p.limited = true → p.descriptors fd = none

theorem closeAllFds_closes (standard : Standard p) :
    kernel.Owes Due (fun _ after => Standard after ∧ Closed after) (closeAllFds 3) p := by
  refine owes_call trivial fun openMax q answers => ?_
  obtain ⟨rfl,rfl⟩ | ⟨rfl,rfl⟩ := answers_sysconf answers
  · rw [if_pos rfl]
    have standard : Standard {p with limited := false} := standard
    refine (systemErrorlog_standard standard).bind fun _ q ⟨standard,unknown⟩ => ?_
    refine (closelog_closes standard (NOFILE-3)).mono fun _ after ⟨standard,same,closed⟩ => ?_
    refine ⟨standard,fun fd high _ within => closed fd high ?_⟩
    rw [same,unknown] at within
    have low := within.resolve_right (by simp)
    omega
  · rw [if_neg (by omega)]
    have standard : Standard {p with limited := true} := standard
    refine (Owes.and (plain_stays ?_) (closelog_closes standard _)).mono
      fun _ after ⟨stays,standard,_,closed⟩ => ⟨standard,fun fd high low _ => closed fd high ?_⟩
    · exact Only.bind (.invoke trivial) fun _ => closeFrom_plain _ _
    · have size : after.openMax = p.openMax := stays.openMax
      omega

/-- What mydaemon has done to a process when it returns, whether or not it has forked. -/
structure Detached (ignoreSigcld : Bool) (p : Own) : Prop where
  fine : Fine p
  standard : Standard p
  closed : Closed p
  umask : p.umask = 0
  sigcld : ignoreSigcld = true → .SIGCLD ∈ p.ignored

theorem answers_chdir {dir : String} {result : Int} (answers : kernel.Answers (.chdir dir) p result after) :
    ∃ directory, after = {p with directory := directory} := by
  obtain ⟨outcome,acts⟩ := answers_act answers nofun
  cases outcome with
  | fails => exact ⟨p.directory,(Prod.mk.inj (Reply.answers.inj acts)).2.symm⟩
  | gives n | acquires => exact ⟨_,(Prod.mk.inj (Reply.answers.inj acts)).2.symm⟩

theorem detached_plain (ignoreSigcld : Bool) (dir : String) :
    (detached ignoreSigcld dir).Only DaemonCall.Plain := by
  refine Only.bind reopenStdfds_plain fun _ => Only.bind (closeAllFds_plain 3) fun _ => ?_
  refine ⟨trivial,fun _ => ⟨trivial,fun _ => ?_⟩⟩
  change (if ignoreSigcld then _ else _ : Detaching Unit).Only DaemonCall.Plain
  split
  · exact ⟨trivial,fun _ => trivial⟩
  · exact trivial

theorem detached_detaches (ignoreSigcld : Bool) (dir : String) (unused : p.log = none) :
    kernel.Owes Due (fun _ after => Stays p after ∧ Detached ignoreSigcld after)
      (detached ignoreSigcld dir) p := by
  refine Owes.and (plain_stays (detached_plain ignoreSigcld dir)) ?_
  refine Owes.bind (reopenStdfds_standard unused) fun _ q ⟨fine,standard⟩ => ?_
  refine Owes.bind (Owes.and (plain_fine (closeAllFds_plain 3) fine) (closeAllFds_closes standard))
    fun _ r ⟨fine,standard,closed⟩ => ?_
  refine owes_call trivial fun _ after answers => ?_
  obtain ⟨directory,rfl⟩ := answers_chdir answers
  refine owes_call trivial fun _ after answers => ?_
  obtain rfl := answers_umask answers
  split
  · refine owes_call trivial fun _ after answers => ?_
    obtain rfl := answers_sigaction answers
    exact owes_done ⟨fine,standard,closed,rfl,fun _ => List.mem_cons_self⟩
  · rename_i kept
    exact owes_done ⟨fine,standard,closed,rfl,fun set => absurd set kept⟩

theorem answers_getppid {result : Int} (answers : kernel.Answers .getppid p result after) :
    result = p.parent ∧ after = p := by
  obtain ⟨outcome,acts⟩ := answers_act answers nofun
  obtain ⟨rfl,rfl⟩ := Prod.mk.inj (Reply.answers.inj acts)
  exact ⟨rfl,rfl⟩

theorem answers_setsid {result : Int} (answers : kernel.Answers .setsid p result after) :
    result < 0 ∨ after = p.lead := by
  obtain ⟨outcome,acts⟩ := answers_act answers nofun
  have acts : p.setsid = (result,after) := Reply.answers.inj acts
  unfold Own.setsid at acts
  split at acts
  · obtain ⟨rfl,_⟩ := Prod.mk.inj acts
    exact Or.inl (by decide)
  · exact Or.inr (Prod.mk.inj acts).2.symm

theorem child_fresh {outcome : Outcome} {pid : Nat} (new : p.child outcome = some pid) :
    0 < pid ∧ pid ≠ p.pid ∧ pid ≠ p.pgid ∧ pid ≠ p.sid := by
  cases outcome with
  | fails | acquires => cases new
  | gives n =>
    unfold Own.child at new
    dsimp only at new
    split at new
    · rename_i fresh
      obtain rfl := Option.some.inj new
      exact ⟨Nat.succ_pos n,fresh⟩
    · cases new

theorem answers_fork {result : Int} (answers : kernel.Answers .fork p result after) :
    result < 0 ∨ 0 < result ∨ result = 0 ∧ ∃ pid, pid ≠ p.pid ∧ pid ≠ p.pgid ∧ pid ≠ p.sid ∧
      after = p.spawned pid := by
  obtain ⟨outcome,_,acts⟩ | ⟨outcome,copies⟩ := answers
  · cases new : p.child outcome with
    | none =>
      have acts : (-1,p) = (result,after) := by simpa [kernel,act,new] using acts
      obtain ⟨rfl,_⟩ := Prod.mk.inj acts
      exact Or.inl (by decide)
    | some pid =>
      have acts : ((pid : Int),{p with children := p.children+1}) = (result,after) := by
        simpa [kernel,act,new] using acts
      obtain ⟨rfl,_⟩ := Prod.mk.inj acts
      have positive := (child_fresh new).1
      exact Or.inr (Or.inl (by omega))
  · obtain ⟨pid,new,same⟩ := Option.map_eq_some_iff.mp copies
    obtain ⟨rfl,rfl⟩ := Prod.mk.inj same
    exact Or.inr (Or.inr ⟨rfl,pid,(child_fresh new).2.1,(child_fresh new).2.2.1,(child_fresh new).2.2.2,rfl⟩)

/-- No program goes on behind exit(). -/
theorem owes_exit {α : Type} {post : α → Own → Prop} (status : Int) :
    kernel.Owes Due post (exit status) p :=
  fun _ _ => ⟨trivial,fun result _ _ => result.elim⟩

/-- Out of the starter's session and process group, at the head of neither of its own, without
a terminal, and with the signals ignored that one could send. -/
structure Away (starter p : Own) : Prop where
  terminal : p.terminal = false
  member : p.pid ≠ p.sid ∧ p.pid ≠ p.pgid
  session : p.sid ≠ starter.sid ∧ p.pgid ≠ starter.pgid
  immune : [.SIGTTOU,.SIGTTIN,.SIGTSTP,.SIGHUP] ⊆ p.ignored

structure Home (starter : Own) (ignoreSigcld : Bool) (p : Own) : Prop extends Detached ignoreSigcld p where
  last : p.children = 0
  away : starter.parent ≠ 1 → Away starter p
  stays : starter.parent = 1 → Stays starter p

/-- Behind a fork() only the new process goes on. -/
theorem owes_fork {post : Unit → Own → Prop} {rest : Detaching Unit} (childless : p.children = 0)
    (goes : ∀ pid, pid ≠ p.pid → pid ≠ p.pgid → pid ≠ p.sid →
      kernel.Owes Due post rest (p.spawned pid)) :
    kernel.Owes Due post (do
      let childpid ← fork
      if childpid < 0 then
        systemErrorlog
        exit 1
      else if childpid > 0 then exit 0
      else rest) p := by
  refine owes_call childless fun childpid q answers => ?_
  obtain negative | positive | ⟨rfl,pid,process,group,session,rfl⟩ := answers_fork answers
  · rw [if_pos negative]
    exact (plain_stays systemErrorlog_plain).bind fun _ _ _ => owes_exit 1
  · rw [if_neg (by omega),if_pos positive]
    exact owes_exit 0
  · exact goes pid process group session

theorem owes_setsid {post : Unit → Own → Prop} {rest : Detaching Unit}
    (goes : kernel.Owes Due post rest p.lead) :
    kernel.Owes Due post (do
      let sid ← setsid
      if sid < 0 then
        systemErrorlog
        exit 1
      else rest) p := by
  refine owes_call trivial fun sid q answers => ?_
  split
  · exact (plain_stays systemErrorlog_plain).bind fun _ _ _ => owes_exit 1
  · rename_i allowed
    obtain rfl := (answers_setsid answers).resolve_left allowed
    exact goes

theorem owes_sigaction {post : Unit → Own → Prop} {rest : Detaching Unit} {signal : Signal}
    (goes : kernel.Owes Due post rest (p.ignore signal)) :
    kernel.Owes Due post (do
      sigaction signal
      rest) p := by
  refine owes_call trivial fun _ q answers => ?_
  obtain rfl := answers_sigaction answers
  exact goes

theorem mydaemon_detaches {starter : Own} (unused : starter.log = none) (childless : starter.children = 0)
    (ignoreSigcld : Bool) (dir : String) :
    kernel.Owes Due (fun _ => Home starter ignoreSigcld) (mydaemon ignoreSigcld dir) starter := by
  refine owes_call trivial fun ppid q answers => ?_
  obtain ⟨known,same⟩ := answers_getppid answers
  rw [same]
  split
  · rename_i init
    refine (detached_detaches ignoreSigcld dir unused).mono fun _ after ⟨stays,detached⟩ => ?_
    exact ⟨detached,stays.children.trans childless,fun other => absurd (by omega) other,fun _ => stays⟩
  rename_i other
  refine owes_sigaction (owes_sigaction (owes_sigaction (owes_fork childless ?_)))
  intro child _ group session
  refine owes_setsid (owes_sigaction (owes_fork rfl ?_))
  intro grandchild _ own leader
  refine (detached_detaches ignoreSigcld dir ?_).mono fun _ after ⟨stays,detached⟩ => ?_
  · exact unused
  refine ⟨detached,stays.children,fun _ => ?_,fun init => absurd (by omega) other⟩
  refine ⟨stays.terminal leader,?_,?_,?_⟩
  · rw [stays.pid,stays.sid,stays.pgid]
    exact ⟨leader,own⟩
  · rw [stays.sid,stays.pgid]
    exact ⟨session,group⟩
  · refine List.Subset.trans ?_ stays.ignored
    simp [Own.ignore,Own.spawned,Own.lead]

theorem copy_other {c : DaemonCall} (other : c ≠ .fork) (outcome : Outcome) : copy c outcome p = none := by
  cases c with
  | fork => contradiction
  | getppid | sigaction _ | setsid | close _ | openFile _ | freopen _ _ | errno | syslog | closelog | sysconf
  | chdir _ | umask _ | exit _ => rfl

theorem answers_children {c : DaemonCall} {result : c.Result} (due : Due c p) (other : c ≠ .fork)
    (answers : kernel.Answers c p result after) : after.children = p.children := by
  by_cases leads : c = .setsid
  · subst leads
    obtain ⟨outcome,acts⟩ := answers_act answers other
    have acts : p.setsid = (result,after) := Reply.answers.inj acts
    unfold Own.setsid at acts
    split at acts <;> obtain ⟨_,rfl⟩ := Prod.mk.inj acts <;> rfl
  · have plain : c.Plain := by
      cases c with
      | fork | setsid => contradiction
      | getppid | sigaction _ | close _ | openFile _ | freopen _ _ | errno | syslog | closelog | sysconf | chdir _
      | umask _ | exit _ => exact due
    exact (answers_stays plain answers).1.children

end

/-- A process from which no other one has gone on. -/
def last (p : Proc DaemonCall DaemonCall.Result Own) : Bool := p.own.children = 0

section
variable {starter : Own} {ignoreSigcld : Bool} {dir : String}

theorem turn_last {p : Proc DaemonCall DaemonCall.Result Own} (outcome : Outcome) (shared : Unit)
    (upholds : kernel.Upholds Due (Home starter ignoreSigcld) (fun _ => True) p) :
    ((kernel.turn outcome p shared).1::(kernel.turn outcome p shared).2.1).countP last =
      [p].countP last := by
  obtain ⟨code,own⟩ := p
  cases code with
  | none => rfl
  | some code =>
    cases code with
    | done value => rfl
    | call c next =>
      have due : Due c own := upholds.called rfl
      by_cases forks : c = .fork
      · subst forks
        have childless : own.children = 0 := due
        simp only [turn,kernel,act,copy]
        cases own.child outcome with
        | none => rfl
        | some pid => simp [answered,Kernel.created,last,childless,Own.spawned]
      · have alone : copy c outcome own = none := copy_other forks outcome
        simp only [turn,kernel,alone,Kernel.created]
        cases acts : (act c outcome own shared).1 with
        | waits | ends => simp [answered,last,List.countP_cons]
        | answers answer =>
          have same : answer.2.children = own.children :=
            answers_children due forks (Or.inl ⟨outcome,shared,acts⟩)
          simp [answered,last,List.countP_cons,same]

theorem run_detached (unused : starter.log = none) (childless : starter.children = 0)
    (turns : List (Dispatch Outcome Empty)) :
    let s := Machine.run kernel.step (start starter ignoreSigcld dir) turns
    (∀ p ∈ s.all, kernel.Upholds Due (Home starter ignoreSigcld) (fun _ => True) p) ∧
      s.all.countP last = 1 := by
  refine Machine.invariant_run (fun s : System =>
    (∀ p ∈ s.all, kernel.Upholds Due (Home starter ignoreSigcld) (fun _ => True) p) ∧
      s.all.countP last = 1) ?_ ?_ turns
  · intro s turn ⟨all,one⟩
    refine ⟨step_upholds (fun p home => owes_done home) (fun _ => trivial) turn all,?_⟩
    obtain same | ⟨p,others,before,⟨_,killed⟩ | ⟨signal,_⟩ | ⟨outcome,_,moved⟩⟩ :=
      step_cases (k := kernel) s turn
    · rw [same]
      exact one
    · rw [killed.countP_eq,← one,before.countP_eq]
      rfl
    · exact signal.elim
    · have upholds := all p (before.mem_iff.mpr List.mem_cons_self)
      have counted := turn_last outcome s.shared upholds
      rw [before.countP_eq] at one
      rw [moved.countP_eq]
      simp only [List.countP_append,List.countP_cons,List.countP_nil] at counted one ⊢
      omega
  · refine ⟨List.forall_mem_singleton.mpr (mydaemon_detaches unused childless ignoreSigcld dir),?_⟩
    simp [start,last,childless]

end

theorem returned_code {p : Proc DaemonCall DaemonCall.Result Own} (back : returned p = true) :
    p.code = some (.done ()) := by
  unfold returned at back
  split at back
  · assumption
  · contradiction

/-- In whatever order the processes go on or are killed, and whichever calls fail: mydaemon
returns in one process at most, and there it has done what it is for. -/
theorem daemon_detached (starter : Own) (unused : starter.log = none) (childless : starter.children = 0)
    (ignoreSigcld : Bool) (dir : String) (turns : List (Dispatch Outcome Empty)) :
    let s := Machine.run kernel.step (start starter ignoreSigcld dir) turns
    s.all.countP returned ≤ 1 ∧ ∀ p ∈ s.all, returned p = true → Home starter ignoreSigcld p.own := by
  intro s
  obtain ⟨all,one⟩ : (∀ p ∈ s.all, kernel.Upholds Due (Home starter ignoreSigcld) (fun _ => True) p) ∧
      s.all.countP last = 1 := run_detached unused childless turns
  have home : ∀ p ∈ s.all, returned p = true → Home starter ignoreSigcld p.own := by
    intro p member back
    have upholds := all p member
    simp only [Upholds,returned_code back] at upholds
    exact upholds p.own .refl
  refine ⟨?_,home⟩
  rw [← one]
  refine List.countP_mono_left fun p member back => ?_
  simp [last,(home p member back).last]

/-- Process 7 of a shell, with nothing failing. -/
theorem daemon_detached_seven :
    let starter : Own := {
      pid := 7, pgid := 7, sid := 5, terminal := true, parent := 5, children := 0, ignored := []
      descriptors := fun fd => if fd < 4 then some (.other fd) else none, openMax := 6, limited := false, log := none
      logged := false, directory := [], umask := 18}
    let s := Machine.run kernel.step (start starter false ".")
      (List.replicate 5 (.proceed 0 (.gives 7)) ++ List.replicate 3 (.proceed 1 (.gives 8)) ++
        List.replicate 16 (.proceed 2 (.gives 0)))
    ∃ p ∈ s.all, returned p = true ∧ Home starter false p.own := by
  intro starter s
  have found : s.all.any returned = true := by decide +kernel
  obtain ⟨p,member,back⟩ := List.any_eq_true.mp found
  exact ⟨p,member,back,(daemon_detached starter rfl rfl false "." _).2 p member back⟩

end SerialIp.Daemon
