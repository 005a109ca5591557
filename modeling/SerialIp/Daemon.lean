import SerialIp.Library.Processes

/-! `mydaemon.c`: the process that is started becomes a daemon through two forks, and the
processes it leaves behind exit. Every call may fail where the system allows it to. -/
namespace SerialIp.Daemon
open Library Library.Program Library.Kernel

def DAEMON_STDIN : String := "/dev/null"
def DAEMON_STDOUT : String := "/dev/console"
def DAEMON_STDERR : String := DAEMON_STDOUT
def FAILSAFE : String := "/dev/null"

/-- As `<sys/param.h>` has it. -/
def NOFILE : Nat := 256

inductive Signal
  | SIGTTOU
  | SIGTTIN
  | SIGTSTP
  | SIGHUP
  | SIGCLD
  deriving DecidableEq

inductive File
  | path (name : String)
  | log
  | other (number : Nat)
  deriving DecidableEq

/-- Where a process stands among the others, and whether its session has a terminal. -/
structure Place where
  pid : Nat
  pgid : Nat
  sid : Nat
  terminal : Bool
  deriving DecidableEq

/-- `parent` is what getppid() returns, `log` the descriptor that syslog() has opened,
`logged` whether it was called, `children` how many fork() has created, and `limited` whether
sysconf() has told the limit of the descriptors. -/
structure Own extends Place where
  parent : Nat
  children : Nat
  ignored : List Signal
  descriptors : Nat → Option File
  openMax : Nat
  limited : Bool
  log : Option Nat
  logged : Bool
  directory : List String
  umask : Nat

inductive DaemonCall
  | getppid
  | sigaction (signal : Signal)
  | fork
  | setsid
  | close (fd : Nat)
  | openFile (file : String)
  | freopen (file : String) (stream : Nat)
  | errno
  | syslog
  | closelog
  | sysconf
  | chdir (dir : String)
  | umask (mask : Nat)
  | exit (status : Int)

abbrev DaemonCall.Result : DaemonCall → Type
  | sigaction _ | syslog | closelog | umask _ => Unit
  | exit _ => Empty
  | freopen _ _ => Bool
  | getppid | fork | setsid | close _ | openFile _ | errno | sysconf | chdir _ => Int

abbrev Detaching := Program DaemonCall DaemonCall.Result

abbrev getppid : Detaching Int := invoke DaemonCall.getppid
/-- Of the dispositions only SIG_IGN is set. -/
abbrev sigaction (signal : Signal) : Detaching Unit := invoke (DaemonCall.sigaction signal)
abbrev fork : Detaching Int := invoke DaemonCall.fork
abbrev setsid : Detaching Int := invoke DaemonCall.setsid
abbrev close (fd : Nat) : Detaching Int := invoke (DaemonCall.close fd)
/-- open(), always with O_NOCTTY. -/
abbrev openFile (file : String) : Detaching Int := invoke (DaemonCall.openFile file)
/-- freopen() of the stream with this descriptor; false for NULL. -/
abbrev freopen (file : String) (stream : Nat) : Detaching Bool := invoke (DaemonCall.freopen file stream)
abbrev errno : Detaching Int := invoke DaemonCall.errno
abbrev syslog : Detaching Unit := invoke DaemonCall.syslog
abbrev closelog : Detaching Unit := invoke DaemonCall.closelog
abbrev sysconf : Detaching Int := invoke DaemonCall.sysconf
abbrev chdir (dir : String) : Detaching Int := invoke (DaemonCall.chdir dir)
abbrev umask (mask : Nat) : Detaching Unit := invoke (DaemonCall.umask mask)

def exit {α : Type} (status : Int) : Detaching α := .call (.exit status) Empty.elim

def systemErrorlog : Detaching Unit := do
  let errno ← errno
  if errno > 0 then syslog

def reopenFd (file : String) : Detaching Unit := do
  let fd ← openFile file
  if fd = -1 then
    syslog
    let _ ← openFile FAILSAFE
    syslog

def reopenFile (file : String) (stream : Nat) : Detaching Unit := do
  let fp ← freopen file stream
  if fp = false then
    syslog
    let _ ← freopen FAILSAFE stream
    syslog

def reopenStdfds : Detaching Unit := do
  let _ ← close 0
  let _ ← close 1
  let _ ← close 2
  reopenFd DAEMON_STDIN
  reopenFile DAEMON_STDIN 0
  reopenFd DAEMON_STDOUT
  reopenFile DAEMON_STDOUT 1
  reopenFd DAEMON_STDERR
  reopenFile DAEMON_STDERR 2

/-- The loop of `close_all_fds`. -/
def closeFrom (fd : Nat) : Nat → Detaching Unit
  | 0 => pure ()
  | count+1 => do
    let _ ← close fd
    closeFrom (fd+1) count

def closeAllFds (start : Nat) : Detaching Unit := do
  let openMax ← sysconf
  if openMax = -1 then
    systemErrorlog
    closelog
    closeFrom start (NOFILE-start)
  else
    closelog
    closeFrom start (openMax.toNat-start)

/-- The label `out`. -/
def detached (ignoreSigcld : Bool) (dir : String) : Detaching Unit := do
  reopenStdfds
  closeAllFds 3
  let _ ← chdir (if dir = "" then "/" else dir)
  umask 0
  if ignoreSigcld then sigaction .SIGCLD

/-- `mydaemon`; an empty `dir` stands for NULL too. -/
def mydaemon (ignoreSigcld : Bool) (dir : String) : Detaching Unit := do
  let ppid ← getppid
  if ppid = 1 then detached ignoreSigcld dir
  else
    sigaction .SIGTTOU
    sigaction .SIGTTIN
    sigaction .SIGTSTP
    let childpid ← fork
    if childpid < 0 then
      systemErrorlog
      exit 1
    else if childpid > 0 then exit 0
    else
      let sid ← setsid
      if sid < 0 then
        systemErrorlog
        exit 1
      else
        sigaction .SIGHUP
        let childpid ← fork
        if childpid < 0 then
          systemErrorlog
          exit 1
        else if childpid > 0 then exit 0
        else detached ignoreSigcld dir

/-- What the system decides: whether a call fails, and the number it gives or whether a
session leader gets the file that it opens for its terminal. -/
inductive Outcome
  | fails
  | gives (number : Nat)
  | acquires

namespace Own

/-- The lowest descriptor that is free. -/
def lowest (p : Own) : Option Nat := (List.range p.openMax).find? fun fd => p.descriptors fd = none

def opened (p : Own) (fd : Nat) (file : File) : Own :=
  {p with descriptors := Function.update p.descriptors fd (some file)}

def closed (p : Own) (fd : Nat) : Own := {p with descriptors := Function.update p.descriptors fd none}

/-- A session leader that has no terminal gets one when it opens it, unless O_NOCTTY says no. -/
def acquire (p : Own) : Outcome → Own
  | .acquires => {p with terminal := p.terminal || p.pid = p.sid}
  | .fails | .gives _ => p

/-- No process, group or session has the pid that a new process gets. -/
def child (p : Own) : Outcome → Option Nat
  | .gives n => if n+1 ≠ p.pid ∧ n+1 ≠ p.pgid ∧ n+1 ≠ p.sid then some (n+1) else none
  | .fails | .acquires => none

def openFile (file : String) (p : Own) : Outcome → Int × Own
  | .fails => (-1,p)
  | .gives _ | .acquires =>
    match p.lowest with
    | some fd => (fd,p.opened fd (.path file))
    | none => (-1,p)

def freopen (file : String) (stream : Nat) (p : Own) (outcome : Outcome) : Bool × Own :=
  let p := p.closed stream
  match outcome with
  | .fails => (false,p)
  | .gives _ | .acquires =>
    match p.lowest with
    | some fd => (true,(p.opened fd (.path file)).acquire outcome)
    | none => (false,p)

def syslog (p : Own) : Outcome → Own
  | .fails => {p with logged := true}
  | .gives _ | .acquires =>
    match p.log,p.lowest with
    | none,some fd => {p.opened fd .log with log := some fd, logged := true}
    | _,_ => {p with logged := true}

def closelog (p : Own) : Own :=
  match p.log with
  | some fd => {p.closed fd with log := none}
  | none => p

def ignore (p : Own) (signal : Signal) : Own := {p with ignored := signal::p.ignored}

/-- The new process of a fork(). -/
def spawned (p : Own) (pid : Nat) : Own := {p with pid := pid, parent := p.pid, children := 0}

def lead (p : Own) : Own := {p with pgid := p.pid, sid := p.pid, terminal := false}

/-- A group leader is refused. -/
def setsid (p : Own) : Int × Own := if p.pid = p.pgid then (-1,p) else (p.pid,p.lead)

end Own

def act : (c : DaemonCall) → Outcome → Own → Unit → Reply c.Result Own × Unit
  | .getppid,_,p,s => (.answers (p.parent,p),s)
  | .sigaction signal,_,p,s => (.answers ((),p.ignore signal),s)
  | .fork,outcome,p,s =>
    (.answers (match p.child outcome with
      | some pid => (pid,{p with children := p.children+1})
      | none => (-1,p)),s)
  | .setsid,_,p,s => (.answers p.setsid,s)
  | .close fd,_,p,s => (.answers (0,p.closed fd),s)
  | .openFile file,outcome,p,s => (.answers (p.openFile file outcome),s)
  | .freopen file stream,outcome,p,s => (.answers (p.freopen file stream outcome),s)
  | .syslog,outcome,p,s => (.answers ((),p.syslog outcome),s)
  | .closelog,_,p,s => (.answers ((),p.closelog),s)
  | .errno,.gives n,p,s => (.answers (n,p),s)
  | .errno,_,p,s => (.answers (0,p),s)
  | .sysconf,.fails,p,s => (.answers (-1,{p with limited := false}),s)
  | .sysconf,_,p,s => (.answers (p.openMax,{p with limited := true}),s)
  | .chdir _,.fails,p,s => (.answers (-1,p),s)
  | .chdir dir,_,p,s => (.answers (0,{p with directory := p.directory ++ [dir]}),s)
  | .umask mask,_,p,s => (.answers ((),{p with umask := mask}),s)
  | .exit _,_,_,s => (.ends,s)

def copy : (c : DaemonCall) → Outcome → Own → Option (c.Result × Own)
  | .fork,outcome,p => (p.child outcome).map fun pid => ((0 : Int),p.spawned pid)
  | _,_,_ => none

/-- A process in which mydaemon has returned stays as it is. A signal is ignored or ends the
process, since no handler has been installed. -/
def kernel : Kernel DaemonCall DaemonCall.Result Own Unit Outcome Empty where
  act := act
  copy := copy
  handle signal _ := signal.elim
  again _ := .done ()
  leave p := {p with descriptors := fun _ => none}

abbrev System := Procs DaemonCall DaemonCall.Result Own Unit

def start (starter : Own) (ignoreSigcld : Bool) (dir : String) : System :=
  ⟨[⟨some (mydaemon ignoreSigcld dir),starter⟩],()⟩

def returned (p : Proc DaemonCall DaemonCall.Result Own) : Bool :=
  match p.code with
  | some (.done ()) => true
  | _ => false

end SerialIp.Daemon
