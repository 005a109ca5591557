import SerialIp.Library.Processes
import SerialIp.ParentSignals
import SerialIp.PortRelease

/-! The processes of a server: the listening one and, with the concurrent server, a child for
each connection. They take turns in any order, every call may fail, a process may be killed
at any time and SIGHUP may replace the configuration between any two calls. -/
namespace SerialIp.Servers
open Library Library.Program Library.Kernel

structure Conf where
  serverType : ServerType
  directory : String
  uid : Nat
  gid : Nat

structure Ids where
  real : Nat
  effective : Nat
  saved : Nat
  deriving DecidableEq

namespace Ids

def all (id : Nat) : Ids := ⟨id,id,id⟩

/-- setuid() and setgid(), which leave a process without privileges only IDs that it has. -/
def set (privileged : Bool) (id : Nat) (ids : Ids) : Option Ids :=
  if privileged then some (all id)
  else if id = ids.real ∨ id = ids.saved then some {ids with effective := id}
  else none

theorem set_all {privileged : Bool} {id before : Nat} {after : Ids}
    (sets : (all before).set privileged id = some after) : after = all id := by
  unfold set at sets
  split_ifs at sets with free same
  · exact (Option.some.inj sets).symm
  · obtain rfl : id = before := or_self_iff.mp same
    exact (Option.some.inj sets).symm

end Ids

/-- What a descriptor stands for; connections are numbered as they are accepted. -/
inductive Description
  | listening
  | connection (number : Nat)
  | other
  deriving DecidableEq

inductive Handlers
  | parentSignalReceived
  | childSignalReceived
  deriving DecidableEq

/-- `groups` are the supplementary groups, `directory` has the calls of chdir() that succeeded. -/
structure Identity where
  user : Ids
  group : Ids
  groups : List Nat
  directory : List String
  handlers : Handlers

abbrev Table := Nat → Option Description

/-- `inForce` has the configurations since the last connection was accepted, the latest first;
`serves` is the connection a child was created for, `ticket` one that was accepted and has
neither been passed on nor served. -/
structure Own extends Identity where
  conf : Conf
  globals : Pool.Globals
  inForce : List Conf
  descriptors : Table
  serves : Option Nat
  ticket : Option Nat

/-- What serial_ip_init() has read after a SIGHUP. -/
structure Hangup where
  conf : Conf
  serialPorts : List Pool.PooledPort

def Own.reload (hangup : Hangup) (p : Own) : Own :=
  {p with
    conf := hangup.conf
    globals := {p.globals with ports := hangup.serialPorts}
    inForce := hangup.conf::p.inForce}

/-- A child only notes the signal. -/
def Own.handle (hangup : Hangup) (p : Own) : Own :=
  if p.handlers = .parentSignalReceived then p.reload hangup else p

/-- `readConf` is a look at the global `conf`. -/
inductive ServerCall
  | readConf
  | accept (sockfd : Nat)
  | sighandler
  | fork
  | close (fd : Nat)
  | resetSignals
  | chdir (directory : String)
  | setgid (gid : Nat)
  | setuid (uid : Nat)
  | parentAcceptSocketConnection (sockfd : Nat)
  | disconnect (sockfd : Nat)
  | exit (status : Int)

/-- `none` for the negative value that accept() fails with. -/
abbrev ServerCall.Result : ServerCall → Type
  | readConf => Conf
  | accept _ => Option Nat
  | sighandler | resetSignals | disconnect _ => Unit
  | exit _ => Empty
  | fork | close _ | chdir _ | setgid _ | setuid _ | parentAcceptSocketConnection _ => Int

abbrev Serving := Program ServerCall ServerCall.Result

abbrev readConf : Serving Conf := invoke ServerCall.readConf
abbrev accept (sockfd : Nat) : Serving (Option Nat) := invoke (ServerCall.accept sockfd)
/-- It is called again for the last signal, if there has been one. -/
abbrev sighandler : Serving Unit := invoke ServerCall.sighandler
abbrev fork : Serving Int := invoke ServerCall.fork
abbrev close (fd : Nat) : Serving Int := invoke (ServerCall.close fd)
abbrev resetSignals : Serving Unit := invoke ServerCall.resetSignals
abbrev chdir (directory : String) : Serving Int := invoke (ServerCall.chdir directory)
abbrev setgid (gid : Nat) : Serving Int := invoke (ServerCall.setgid gid)
abbrev setuid (uid : Nat) : Serving Int := invoke (ServerCall.setuid uid)
abbrev parentAcceptSocketConnection (sockfd : Nat) : Serving Int :=
  invoke (ServerCall.parentAcceptSocketConnection sockfd)
abbrev disconnect (sockfd : Nat) : Serving Unit := invoke (ServerCall.disconnect sockfd)

/-- _exit(), which does not return. -/
def exit {α : Type} (status : Int) : Serving α := .call (.exit status) Empty.elim

def handleNetworkConnection (sockfd : Nat) : Serving Int := do
  let conf ← readConf
  (if conf.serverType = .concurrent then resetSignals else pure () : Serving Unit)
  let conf ← readConf
  let ret ← chdir conf.directory
  if ret ≠ 0 then exit 1 else
  let conf ← readConf
  let ret ← setgid conf.gid
  if ret ≠ 0 then exit 1 else
  let conf ← readConf
  let ret ← setuid conf.uid
  if ret ≠ 0 then exit 1 else
  let ret ← parentAcceptSocketConnection sockfd
  disconnect sockfd
  return ret

/-- One round of the loop. -/
def concurrentServer (sockfd : Nat) (funct : Nat → Serving Int) : Serving Unit := do
  match ← accept sockfd with
  | none => sighandler
  | some sockfdForClient =>
    let childpid ← fork
    if childpid = 0 then
      let _ ← close sockfd
      let ret ← funct sockfdForClient
      exit ret
    else
      let _ ← close sockfdForClient

/-- One round of the loop. -/
def iterativeServer (sockfd : Nat) (funct : Nat → Serving Int) : Serving Unit := do
  match ← accept sockfd with
  | none => sighandler
  | some sockfdForClient =>
    let _ ← funct sockfdForClient
    let _ ← close sockfdForClient

def rawTcpGateway (sockfd : Nat) (funct : Nat → Serving Int) : Serving Unit := iterativeServer sockfd funct

/-- The loop is chosen once, whatever the configuration says later. -/
def serverInit : ServerType → Nat → (Nat → Serving Int) → Serving Unit
  | .concurrent => concurrentServer
  | .iterative => iterativeServer
  | .rawTcpGateway => rawTcpGateway

/-- The course of a session: what its settings hold before they are read, and what its calls
answer, each by its number. -/
structure Course where
  fuel : Nat
  oldSetting : Termios
  newSetting : Termios
  answers : Nat → (c : Pool.PortCall) → c.Result

namespace Course
variable (course : Course)

/-- The number of the call and the descriptors; open() gives one that is free or fails. -/
def act : (c : Pool.PortCall) → Nat × Table → c.Result × Nat × Table
  | .openDevice port,(number,table) =>
    let fd := course.answers number (.openDevice port)
    if 0 ≤ fd ∧ table fd.toNat = none then
      (fd,number+1,Function.update table fd.toNat (some .other))
    else (-1,number+1,table)
  | .close fd,(number,table) =>
    (course.answers number (.close fd),number+1,Function.update table fd.toNat none)
  | c,(number,table) => (course.answers number c,number+1,table)

/-- The session of a process; without a result it is still going on. -/
def run (sockfd : Nat) (p : Own) : Option (Int × Own) :=
  let session :=
    Pool.parentAcceptSocketConnection course.fuel sockfd course.oldSetting course.newSetting p.globals
  match session.execute course.act (0,p.descriptors) with
  | (some (ret,globals),_,table) => some (ret,{p with globals := globals, descriptors := table})
  | (none,_) => none

end Course

/-- What the system decides. A number is for the calls that return one or 0, the other two are
for the handler and the session; any other call fails with them. -/
inductive Outcome
  | fails
  | gives (number : Nat)
  | reloads (hangup : Hangup)
  | session (course : Course)

/-- The connections accepted and those that a session has ended for. -/
structure Connections where
  accepted : Nat
  sessions : List Nat

/-- What setuid() and setgid() return, and the process with the new IDs. -/
def Own.change (p : Own) (store : Ids → Own) : Option Ids → Int × Own
  | some ids => (0,store ids)
  | none => (-1,p)

def Own.setgid (gid : Nat) (p : Own) : Int × Own :=
  p.change (fun group => {p with group := group}) (p.group.set (p.user.effective = 0) gid)

def Own.setuid (uid : Nat) (p : Own) : Int × Own :=
  p.change (fun user => {p with user := user}) (p.user.set (p.user.effective = 0) uid)

/-- A descriptor that accept() gives is one that was free. -/
def act : (c : ServerCall) → Outcome → Own → Connections → Reply c.Result Own × Connections
  | .readConf,_,p,s => (.answers (p.conf,p),s)
  | .accept _,.gives fd,p,s =>
    if p.descriptors fd = none then
      (.answers (some fd,{p with
        inForce := [p.conf]
        descriptors := Function.update p.descriptors fd (some (.connection s.accepted))
        ticket := some s.accepted}),{s with accepted := s.accepted+1})
    else (.answers (none,p),s)
  | .accept _,_,p,s => (.answers (none,p),s)
  | .sighandler,.reloads hangup,p,s => (.answers ((),p.reload hangup),s)
  | .sighandler,_,p,s => (.answers ((),p),s)
  | .fork,.gives pid,p,s => (.answers ((pid : Int)+1,{p with ticket := none}),s)
  | .fork,_,p,s => (.answers (-1,{p with ticket := none}),s)
  | .close fd,_,p,s => (.answers (0,{p with descriptors := Function.update p.descriptors fd none}),s)
  | .resetSignals,_,p,s => (.answers ((),{p with handlers := .childSignalReceived}),s)
  | .chdir directory,.gives _,p,s =>
    (.answers (0,{p with directory := p.directory ++ [directory]}),s)
  | .chdir _,_,p,s => (.answers (-1,p),s)
  | .setgid gid,.gives _,p,s => (.answers (p.setgid gid),s)
  | .setgid _,_,p,s => (.answers (-1,p),s)
  | .setuid uid,.gives _,p,s => (.answers (p.setuid uid),s)
  | .setuid _,_,p,s => (.answers (-1,p),s)
  | .parentAcceptSocketConnection sockfd,.session course,p,s =>
    match course.run sockfd p with
    | none => (.waits,s)
    | some (ret,after) => (.answers (ret,{after with ticket := none}),
        match p.descriptors sockfd with
        | some (.connection number) => {s with sessions := s.sessions ++ [number]}
        | _ => s)
  | .parentAcceptSocketConnection _,_,_,s => (.waits,s)
  | .disconnect _,_,p,s => (.answers ((),p),s)
  | .exit _,_,_,s => (.ends,s)

/-- The child that fork() creates goes on with the connection. -/
def copy : (c : ServerCall) → Outcome → Own → Option (c.Result × Own)
  | .fork,.gives _,p => some ((0 : Int),{p with serves := p.ticket})
  | _,_,_ => none

def kernel (server : ServerType) (sockfd : Nat) :
    Kernel ServerCall ServerCall.Result Own Connections Outcome Hangup where
  act := act
  copy := copy
  handle := Own.handle
  again _ := serverInit server sockfd handleNetworkConnection
  leave p := {p with descriptors := fun _ => none, ticket := none}

abbrev System := Procs ServerCall ServerCall.Result Own Connections

/-- The listening process in front of its first round. -/
def start (listener : Own) : System := ⟨[⟨some (.done ()),listener⟩],⟨0,[]⟩⟩

/-- The socket of the session that a process is in: the call is made and not yet answered. -/
def session (p : Proc ServerCall ServerCall.Result Own) : Option Nat :=
  match p.code with
  | some (.call (.parentAcceptSocketConnection sockfd) _) => some sockfd
  | _ => none

theorem session_code {p : Proc ServerCall ServerCall.Result Own} {fd : Nat}
    (within : session p = some fd) :
    ∃ next, p.code = some (.call (.parentAcceptSocketConnection fd) next) := by
  unfold session at within
  split at within
  · rename_i sockfd next code
    obtain rfl := Option.some.inj within
    exact ⟨next,code⟩
  · cases within

/-- What the calls of a session do to the descriptors, as far as they take or give back any. -/
def Replays : List Pool.Event → Table → Table → Prop
  | [],table,after => after = table
  | .opened _ fd::events,table,after => table fd.toNat = none ∧
    Replays events (Function.update table fd.toNat (some .other)) after
  | .closed fd::events,table,after => Replays events (Function.update table fd.toNat none) after
  | .locked _::events,table,after | .unlocked _::events,table,after => Replays events table after

theorem runs_replays {α : Type} {course : Course} {program : Pool.Pooling α} {trace : Pool.Trace}
    {w after : Nat × Table} {value : α}
    (runs : program.Runs (fun c w result after => course.act c w = (result,after)) trace w value after) :
    Replays (Pool.events trace) w.2 after.2 := by
  induction program generalizing trace w with
  | done result =>
    obtain ⟨rfl,_,rfl⟩ := runs
    rfl
  | call c next ih =>
    obtain ⟨result,rest,mid,rfl,acts,onward⟩ := runs
    have later := ih result onward
    cases c with
    | createUucpLockfile port =>
      obtain ⟨_,rfl⟩ := Prod.mk.inj acts
      cases result with
      | none => exact later
      | some path => exact later
    | openDevice port =>
      unfold Course.act at acts
      dsimp only at acts
      split at acts
      · rename_i free
        obtain ⟨rfl,rfl⟩ := Prod.mk.inj acts
        rw [Pool.events_opened (not_lt.mpr free.1)]
        exact ⟨free.2,later⟩
      · obtain ⟨rfl,rfl⟩ := Prod.mk.inj acts
        rw [Pool.events_unopened neg_one_lt_zero]
        exact later
    | strdup path | unlockUucpLockfile port | close fd | fcntlGetfl fd | fcntlSetfl fd nonblock flags
    | setsockopt sockfd | tcgetattr fd | cfsetospeed speed | cfsetispeed speed | tcsetattr fd setting
    | tcflush fd | bfmalloc | communicate sockfd fd =>
      obtain ⟨_,rfl⟩ := Prod.mk.inj acts
      exact later

theorem reopened {table : Table} {fd : Nat} (free : table fd = none) (description : Option Description) :
    Function.update (Function.update table fd description) fd none = table := by
  rw [Function.update_idem,Function.update_eq_self_iff]
  exact free.symm

/-- A session returns with the descriptors that it was called with. -/
theorem Course.run_cases {course : Course} {sockfd : Nat} {p after : Own} {ret : Int}
    (returns : course.run sockfd p = some (ret,after)) : ∃ globals, after = {p with globals := globals} := by
  unfold Course.run at returns
  dsimp only at returns
  obtain ⟨trace,runs⟩ := runs_execute course.act (Pool.parentAcceptSocketConnection course.fuel sockfd
    course.oldSetting course.newSetting p.globals) (0,p.descriptors)
  split at returns
  · rename_i value globals number table ended
    obtain ⟨rfl,rfl⟩ := Prod.mk.inj (Option.some.inj returns)
    rw [ended] at runs
    have replays := runs_replays runs
    obtain ⟨_,nothing | ⟨r,_,refused | ⟨fd,served⟩⟩⟩ := Pool.parentAcceptSocketConnection_runs runs
    · rw [nothing] at replays
      exact ⟨globals,by rw [show table = p.descriptors from replays]⟩
    · rw [refused] at replays
      exact ⟨globals,by rw [show table = p.descriptors from replays]⟩
    · rw [served] at replays
      obtain ⟨free,same⟩ := replays
      have same : table = p.descriptors := same.trans (reopened free _)
      exact ⟨globals,by rw [same]⟩
  · cases returns

section
variable {server : ServerType} {sockfd : Nat} {p after : Own}

theorem answers_readConf {result : Conf} (answers : (kernel server sockfd).Answers .readConf p result after) :
    result = p.conf ∧ after = p := by
  obtain ⟨outcome,s,acts⟩ | ⟨outcome,copies⟩ := answers
  · obtain ⟨rfl,rfl⟩ := Prod.mk.inj (Reply.answers.inj acts)
    exact ⟨rfl,rfl⟩
  · cases copies

theorem answers_sighandler {result : Unit}
    (answers : (kernel server sockfd).Answers .sighandler p result after) :
    after = p ∨ ∃ hangup, after = p.reload hangup := by
  obtain ⟨outcome,s,acts⟩ | ⟨outcome,copies⟩ := answers
  · cases outcome with
    | fails | gives number | session course => exact Or.inl (Prod.mk.inj (Reply.answers.inj acts)).2.symm
    | reloads hangup => exact Or.inr ⟨hangup,(Prod.mk.inj (Reply.answers.inj acts)).2.symm⟩
  · cases copies

theorem answers_accept {fd : Nat} {result : Option Nat}
    (answers : (kernel server sockfd).Answers (.accept fd) p result after) :
    result = none ∧ after = p ∨ ∃ new number, result = some new ∧
      p.descriptors new = none ∧ after = {p with
        inForce := [p.conf]
        descriptors := Function.update p.descriptors new (some (.connection number))
        ticket := some number} := by
  obtain ⟨outcome,s,acts⟩ | ⟨outcome,copies⟩ := answers
  · cases outcome with
    | fails | reloads hangup | session course =>
      obtain ⟨rfl,rfl⟩ := Prod.mk.inj (Reply.answers.inj acts)
      exact Or.inl ⟨rfl,rfl⟩
    | gives new =>
      simp only [kernel,act] at acts
      split_ifs at acts with free
      · obtain ⟨rfl,rfl⟩ := Prod.mk.inj (Reply.answers.inj acts)
        exact Or.inr ⟨new,s.accepted,rfl,free,rfl⟩
      · obtain ⟨rfl,rfl⟩ := Prod.mk.inj (Reply.answers.inj acts)
        exact Or.inl ⟨rfl,rfl⟩
  · cases copies

theorem answers_fork {result : Int} (answers : (kernel server sockfd).Answers .fork p result after) :
    result ≠ 0 ∧ after = {p with ticket := none} ∨ result = 0 ∧ after = {p with serves := p.ticket} := by
  obtain ⟨outcome,s,acts⟩ | ⟨outcome,copies⟩ := answers
  · refine Or.inl ?_
    cases outcome with
    | fails | reloads hangup | session course =>
      obtain ⟨rfl,rfl⟩ := Prod.mk.inj (Reply.answers.inj acts)
      exact ⟨by decide,rfl⟩
    | gives pid =>
      obtain ⟨rfl,rfl⟩ := Prod.mk.inj (Reply.answers.inj acts)
      exact ⟨by omega,rfl⟩
  · cases outcome with
    | fails | reloads hangup | session course => cases copies
    | gives pid =>
      obtain ⟨rfl,rfl⟩ := Prod.mk.inj (Option.some.inj copies)
      exact Or.inr ⟨rfl,rfl⟩

theorem answers_close {fd : Nat} {result : Int}
    (answers : (kernel server sockfd).Answers (.close fd) p result after) :
    after = {p with descriptors := Function.update p.descriptors fd none} := by
  obtain ⟨outcome,s,acts⟩ | ⟨outcome,copies⟩ := answers
  · exact (Prod.mk.inj (Reply.answers.inj acts)).2.symm
  · cases copies

theorem answers_resetSignals {result : Unit}
    (answers : (kernel server sockfd).Answers .resetSignals p result after) :
    after = {p with handlers := .childSignalReceived} := by
  obtain ⟨outcome,s,acts⟩ | ⟨outcome,copies⟩ := answers
  · exact (Prod.mk.inj (Reply.answers.inj acts)).2.symm
  · cases copies

theorem answers_chdir {directory : String} {result : Int}
    (answers : (kernel server sockfd).Answers (.chdir directory) p result after) :
    result ≠ 0 ∧ after = p ∨ result = 0 ∧ after = {p with directory := p.directory ++ [directory]} := by
  obtain ⟨outcome,s,acts⟩ | ⟨outcome,copies⟩ := answers
  · cases outcome with
    | fails | reloads hangup | session course =>
      obtain ⟨rfl,rfl⟩ := Prod.mk.inj (Reply.answers.inj acts)
      exact Or.inl ⟨by simp,rfl⟩
    | gives number =>
      obtain ⟨rfl,rfl⟩ := Prod.mk.inj (Reply.answers.inj acts)
      exact Or.inr ⟨rfl,rfl⟩
  · cases copies

theorem change_cases {store : Ids → Own} {ids : Option Ids} {result : Int}
    (changes : p.change store ids = (result,after)) :
    result ≠ 0 ∧ after = p ∨ result = 0 ∧ ∃ new, ids = some new ∧ after = store new := by
  cases ids with
  | none =>
    obtain ⟨rfl,rfl⟩ := Prod.mk.inj changes
    exact Or.inl ⟨by decide,rfl⟩
  | some new =>
    obtain ⟨rfl,rfl⟩ := Prod.mk.inj changes
    exact Or.inr ⟨rfl,new,rfl,rfl⟩

theorem answers_setgid {gid : Nat} {result : Int}
    (answers : (kernel server sockfd).Answers (.setgid gid) p result after) :
    result ≠ 0 ∧ after = p ∨ result = 0 ∧ ∃ new,
      p.group.set (p.user.effective = 0) gid = some new ∧ after = {p with group := new} := by
  obtain ⟨outcome,s,acts⟩ | ⟨outcome,copies⟩ := answers
  · cases outcome with
    | fails | reloads hangup | session course =>
      obtain ⟨rfl,rfl⟩ := Prod.mk.inj (Reply.answers.inj acts)
      exact Or.inl ⟨by simp,rfl⟩
    | gives number => exact change_cases (Reply.answers.inj acts)
  · cases copies

theorem answers_setuid {uid : Nat} {result : Int}
    (answers : (kernel server sockfd).Answers (.setuid uid) p result after) :
    result ≠ 0 ∧ after = p ∨ result = 0 ∧ ∃ new,
      p.user.set (p.user.effective = 0) uid = some new ∧ after = {p with user := new} := by
  obtain ⟨outcome,s,acts⟩ | ⟨outcome,copies⟩ := answers
  · cases outcome with
    | fails | reloads hangup | session course =>
      obtain ⟨rfl,rfl⟩ := Prod.mk.inj (Reply.answers.inj acts)
      exact Or.inl ⟨by simp,rfl⟩
    | gives number => exact change_cases (Reply.answers.inj acts)
  · cases copies

theorem answers_parentAcceptSocketConnection {fd : Nat} {result : Int}
    (answers : (kernel server sockfd).Answers (.parentAcceptSocketConnection fd) p result after) :
    ∃ globals, after = {p with globals := globals, ticket := none} := by
  obtain ⟨outcome,s,acts⟩ | ⟨outcome,copies⟩ := answers
  · cases outcome with
    | fails | gives number | reloads hangup => cases acts
    | session course =>
      simp only [kernel,act] at acts
      cases returns : course.run fd p with
      | none => simp [returns] at acts
      | some returned =>
        obtain ⟨globals,same⟩ := Course.run_cases returns
        simp only [returns,same] at acts
        exact ⟨globals,(Prod.mk.inj (Reply.answers.inj acts)).2.symm⟩
  · cases copies

theorem answers_disconnect {fd : Nat} {result : Unit}
    (answers : (kernel server sockfd).Answers (.disconnect fd) p result after) : after = p := by
  obtain ⟨outcome,s,acts⟩ | ⟨outcome,copies⟩ := answers
  · exact (Prod.mk.inj (Reply.answers.inj acts)).2.symm
  · cases copies

/-- What a reload of the configuration does not spoil outlasts signals. -/
theorem stable_reload {assertion : Own → Prop}
    (reloads : ∀ p hangup, assertion p → assertion (p.reload hangup)) :
    (kernel server sockfd).Stable assertion := by
  intro hangup p now
  change assertion (p.handle hangup)
  unfold Own.handle
  split
  · exact reloads p hangup now
  · exact now

/-- No program goes on behind _exit(). -/
theorem owes_exit {α : Type} {due : ServerCall → Own → Prop} {post : α → Own → Prop} {status : Int}
    {assertion : Own → Prop} (stable : (kernel server sockfd).Stable assertion) (now : assertion p)
    (ready : ∀ q, assertion q → due (.exit status) q) :
    (kernel server sockfd).Owes due post (exit status) p :=
  fun q signalled => ⟨ready q (stable.later now signalled),fun result _ _ => result.elim⟩

end

/-- Started by one user and one group. -/
structure Single (user group : Ids) : Prop where
  user : ∃ uid, user = Ids.all uid
  group : ∃ gid, group = Ids.all gid

/-- All user IDs are one that a configuration has said since the connection was accepted, all
group IDs are, and so is the directory. -/
structure Confined (p : Own) : Prop where
  user : ∃ conf ∈ p.inForce, p.user = Ids.all conf.uid
  group : ∃ conf ∈ p.inForce, p.group = Ids.all conf.gid
  directory : ∃ conf ∈ p.inForce, p.directory.getLast? = some conf.directory
  handlers : (∀ conf ∈ p.inForce, conf.serverType = .concurrent) → p.handlers = .childSignalReceived

section
variable (server : ServerType) (sockfd : Nat) (listener : Own)

/-- Between two calls: only children of a concurrent server change what they are. -/
structure Settled (p : Own) : Prop where
  single : Single p.user p.group
  unmoved : server = .concurrent → p.serves = none → p.toIdentity = listener.toIdentity

def Entitled (c : ServerCall) (p : Own) : Prop :=
  Settled server listener p ∧ ∀ fd, c = .parentAcceptSocketConnection fd → Confined p

/-- In handle_network_connection; the connection is the one of a child or the listener's own. -/
structure Entered (child : Option Nat) (p : Own) : Prop where
  single : Single p.user p.group
  serves : p.serves = child
  forked : server = .concurrent → child ≠ none
  current : p.conf ∈ p.inForce

/-- The steps of handle_network_connection that a process has behind it. -/
structure Replaced (p : Own) : Prop where
  handlers : (∀ conf ∈ p.inForce, conf.serverType = .concurrent) → p.handlers = .childSignalReceived

structure Placed (p : Own) : Prop extends Replaced p where
  directory : ∃ conf ∈ p.inForce, p.directory.getLast? = some conf.directory

structure Grouped (p : Own) : Prop extends Placed p where
  group : ∃ conf ∈ p.inForce, p.group = Ids.all conf.gid

end

section
variable {server : ServerType} {sockfd : Nat} {listener p : Own} {child : Option Nat}

theorem said_reload {conf : Conf} (said : conf ∈ p.inForce) (hangup : Hangup) :
    conf ∈ (p.reload hangup).inForce := List.mem_cons_of_mem _ said

theorem Entered.reload (entered : Entered server child p) (hangup : Hangup) :
    Entered server child (p.reload hangup) :=
  ⟨entered.single,entered.serves,entered.forked,List.mem_cons_self⟩

theorem Replaced.reload (replaced : Replaced p) (hangup : Hangup) : Replaced (p.reload hangup) :=
  ⟨fun all => replaced.handlers fun conf said => all conf (said_reload said hangup)⟩

theorem Placed.reload (placed : Placed p) (hangup : Hangup) : Placed (p.reload hangup) := by
  obtain ⟨conf,said,same⟩ := placed.directory
  exact ⟨placed.toReplaced.reload hangup,conf,said_reload said hangup,same⟩

theorem Grouped.reload (grouped : Grouped p) (hangup : Hangup) : Grouped (p.reload hangup) := by
  obtain ⟨conf,said,same⟩ := grouped.group
  exact ⟨grouped.toPlaced.reload hangup,conf,said_reload said hangup,same⟩

theorem Confined.reload (confined : Confined p) (hangup : Hangup) : Confined (p.reload hangup) := by
  obtain ⟨conf,said,same⟩ := confined.user
  have grouped : Grouped p := ⟨⟨⟨confined.handlers⟩,confined.directory⟩,confined.group⟩
  have later := grouped.reload hangup
  exact ⟨⟨conf,said_reload said hangup,same⟩,later.group,later.directory,later.handlers⟩

theorem Entered.settled (entered : Entered server child p) : Settled server listener p :=
  ⟨entered.single,fun concurrent null => absurd (entered.serves.symm.trans null) (entered.forked concurrent)⟩

theorem stable_entered : (kernel server sockfd).Stable (Entered server child) :=
  stable_reload fun _ hangup now => now.reload hangup

/-- The rule for a call that is no session. -/
theorem owes_plain {assertion : Own → Prop} {α : Type} {post : α → Own → Prop} {c : ServerCall}
    {second : c.Result → Serving α} (stable : (kernel server sockfd).Stable assertion)
    (settled : ∀ q, assertion q → Settled server listener q) (now : assertion p)
    (other : ∀ fd, c ≠ .parentAcceptSocketConnection fd)
    (rest : ∀ q result after, assertion q → (kernel server sockfd).Answers c q result after →
      (kernel server sockfd).Owes (Entitled server listener) post (second result) after) :
    (kernel server sockfd).Owes (Entitled server listener) post (invoke c >>= second) p :=
  Owes.call stable now
    (fun q held => ⟨settled q held,fun fd same => absurd same (other fd)⟩) rest

section
variable (behind : Own → Prop) (stays : ∀ p hangup, behind p → behind (p.reload hangup))
include stays

theorem entered_stable : (kernel server sockfd).Stable fun q => Entered server child q ∧ behind q :=
  stable_entered.and (stable_reload stays)

variable {α : Type} {post : α → Own → Prop} (entered : Entered server child p) (now : behind p)
include entered now

theorem owes_entered {c : ServerCall} {second : c.Result → Serving α}
    (other : ∀ fd, c ≠ .parentAcceptSocketConnection fd)
    (rest : ∀ q result after, Entered server child q → behind q →
      (kernel server sockfd).Answers c q result after →
      (kernel server sockfd).Owes (Entitled server listener) post (second result) after) :
    (kernel server sockfd).Owes (Entitled server listener) post (invoke c >>= second) p :=
  owes_plain (entered_stable behind stays) (fun _ held => held.1.settled) ⟨entered,now⟩ other
    fun q result after held => rest q result after held.1 held.2

/-- A configuration that has been read stays one of those in force. -/
theorem owes_readConf {second : Conf → Serving α}
    (rest : ∀ q conf, Entered server child q → behind q → conf ∈ q.inForce →
      (kernel server sockfd).Owes (Entitled server listener) post (second conf) q) :
    (kernel server sockfd).Owes (Entitled server listener) post (readConf >>= second) p := by
  refine owes_entered behind stays entered now (by simp) ?_
  intro q conf after entered held answers
  obtain ⟨rfl,rfl⟩ := answers_readConf answers
  exact rest _ _ entered held entered.current

end

theorem owes_exit_entered {α : Type} {post : α → Own → Prop} (status : Int)
    (entered : Entered server child p) :
    (kernel server sockfd).Owes (Entitled server listener) post (exit status) p :=
  owes_exit stable_entered entered fun _ held => ⟨held.settled,nofun⟩

theorem owes_done_entered {α : Type} {behind : Own → Prop} {value : α}
    (stays : ∀ p hangup, behind p → behind (p.reload hangup)) (entered : Entered server child p)
    (now : behind p) : (kernel server sockfd).Owes (Entitled server listener)
      (fun _ q => Entered server child q ∧ behind q) (.done value) p :=
  .done (entered_stable behind stays) ⟨entered,now⟩

theorem owes_resetSignals (entered : Entered server child p) :
    (kernel server sockfd).Owes (Entitled server listener)
      (fun _ q => Entered server child q ∧ Replaced q) (do
        let conf ← readConf
        (if conf.serverType = .concurrent then resetSignals else pure () : Serving Unit)) p := by
  have stays (p : Own) (hangup : Hangup) (now : Replaced p) : Replaced (p.reload hangup) := now.reload hangup
  refine owes_readConf (fun _ => True) (fun _ _ => id) entered trivial fun q conf entered _ said => ?_
  split
  · change (kernel server sockfd).Owes _ _ (resetSignals >>= pure) q
    refine owes_entered (fun _ => True) (fun _ _ => id) entered trivial (by simp) ?_
    intro q _ after entered _ answers
    obtain rfl := answers_resetSignals answers
    exact owes_done_entered stays ⟨entered.single,entered.serves,entered.forked,entered.current⟩ ⟨fun _ => rfl⟩
  · rename_i other
    exact owes_done_entered stays entered ⟨fun all => absurd (all conf said) other⟩

section
variable {α : Type} {post : α → Own → Prop} {rest : Serving α}

theorem owes_chdir (entered : Entered server child p) (replaced : Replaced p)
    (onward : ∀ q, Entered server child q → Placed q →
      (kernel server sockfd).Owes (Entitled server listener) post rest q) :
    (kernel server sockfd).Owes (Entitled server listener) post (do
      let conf ← readConf
      let ret ← chdir conf.directory
      if ret ≠ 0 then exit 1 else rest) p := by
  refine owes_readConf Replaced (fun _ hangup now => now.reload hangup) entered replaced
    fun q conf entered replaced said => ?_
  refine owes_entered (fun q => Replaced q ∧ conf ∈ q.inForce)
    (fun _ hangup now => ⟨now.1.reload hangup,said_reload now.2 hangup⟩) entered ⟨replaced,said⟩
    (by simp) fun q ret after entered ⟨replaced,said⟩ answers => ?_
  obtain ⟨nonzero,rfl⟩ | ⟨rfl,rfl⟩ := answers_chdir answers
  · rw [if_pos nonzero]
    exact owes_exit_entered 1 entered
  · rw [if_neg (by simp)]
    exact onward _ ⟨entered.single,entered.serves,entered.forked,entered.current⟩
      ⟨⟨replaced.handlers⟩,conf,said,by simp⟩

theorem owes_setgid (entered : Entered server child p) (placed : Placed p)
    (onward : ∀ q, Entered server child q → Grouped q →
      (kernel server sockfd).Owes (Entitled server listener) post rest q) :
    (kernel server sockfd).Owes (Entitled server listener) post (do
      let conf ← readConf
      let ret ← setgid conf.gid
      if ret ≠ 0 then exit 1 else rest) p := by
  refine owes_readConf Placed (fun _ hangup now => now.reload hangup) entered placed
    fun q conf entered placed said => ?_
  refine owes_entered (fun q => Placed q ∧ conf ∈ q.inForce)
    (fun _ hangup now => ⟨now.1.reload hangup,said_reload now.2 hangup⟩) entered ⟨placed,said⟩
    (by simp) fun q ret after entered ⟨placed,said⟩ answers => ?_
  obtain ⟨gid,group⟩ := entered.single.group
  obtain ⟨nonzero,rfl⟩ | ⟨rfl,new,sets,rfl⟩ := answers_setgid answers
  · rw [if_pos nonzero]
    exact owes_exit_entered 1 entered
  · rw [if_neg (by simp)]
    rw [group] at sets
    obtain rfl := Ids.set_all sets
    exact onward _ ⟨⟨entered.single.user,conf.gid,rfl⟩,entered.serves,entered.forked,entered.current⟩
      ⟨⟨⟨placed.handlers⟩,placed.directory⟩,conf,said,rfl⟩

theorem owes_setuid (entered : Entered server child p) (grouped : Grouped p)
    (onward : ∀ q, Entered server child q → Confined q →
      (kernel server sockfd).Owes (Entitled server listener) post rest q) :
    (kernel server sockfd).Owes (Entitled server listener) post (do
      let conf ← readConf
      let ret ← setuid conf.uid
      if ret ≠ 0 then exit 1 else rest) p := by
  refine owes_readConf Grouped (fun _ hangup now => now.reload hangup) entered grouped
    fun q conf entered grouped said => ?_
  refine owes_entered (fun q => Grouped q ∧ conf ∈ q.inForce)
    (fun _ hangup now => ⟨now.1.reload hangup,said_reload now.2 hangup⟩) entered ⟨grouped,said⟩
    (by simp) fun q ret after entered ⟨grouped,said⟩ answers => ?_
  obtain ⟨uid,user⟩ := entered.single.user
  obtain ⟨nonzero,rfl⟩ | ⟨rfl,new,sets,rfl⟩ := answers_setuid answers
  · rw [if_pos nonzero]
    exact owes_exit_entered 1 entered
  · rw [if_neg (by simp)]
    rw [user] at sets
    obtain rfl := Ids.set_all sets
    exact onward _ ⟨⟨⟨conf.uid,rfl⟩,entered.single.group⟩,entered.serves,entered.forked,entered.current⟩
      ⟨⟨conf,said,rfl⟩,grouped.group,grouped.directory,grouped.handlers⟩

end

theorem handleNetworkConnection_confines (entered : Entered server child p) (fd : Nat) :
    (kernel server sockfd).Owes (Entitled server listener) (fun _ => Entered server child)
      (handleNetworkConnection fd) p := by
  refine (owes_resetSignals entered).bind fun _ q ⟨entered,replaced⟩ => ?_
  refine owes_chdir entered replaced fun q entered placed => ?_
  refine owes_setgid entered placed fun q entered grouped => ?_
  refine owes_setuid entered grouped fun q entered confined => ?_
  refine Owes.call (entered_stable Confined fun _ hangup now => now.reload hangup) ⟨entered,confined⟩
    (fun _ held => ⟨held.1.settled,fun _ _ => held.2⟩) fun q ret after ⟨entered,_⟩ answers => ?_
  obtain ⟨globals,rfl⟩ := answers_parentAcceptSocketConnection answers
  have entered : Entered server child {q with globals := globals, ticket := none} :=
    ⟨entered.single,entered.serves,entered.forked,entered.current⟩
  refine owes_entered (fun _ => True) (fun _ _ => id) entered trivial (by simp)
    fun q _ after entered _ answers => ?_
  obtain rfl := answers_disconnect answers
  exact fun _ => stable_entered.later entered

/-- Between two rounds no process of a concurrent server is a child. -/
structure AtHome (server : ServerType) (listener p : Own) : Prop extends Settled server listener p where
  listening : server = .concurrent → p.serves = none

theorem AtHome.reload (home : AtHome server listener p) (hangup : Hangup) :
    AtHome server listener (p.reload hangup) :=
  ⟨⟨home.single,home.unmoved⟩,home.listening⟩

theorem stable_home : (kernel server sockfd).Stable (AtHome server listener) :=
  stable_reload fun _ hangup home => home.reload hangup

theorem owes_done_home {α : Type} {value : α} (home : AtHome server listener p) :
    (kernel server sockfd).Owes (Entitled server listener) (fun _ => AtHome server listener)
      (.done value) p :=
  fun _ => stable_home.later home

theorem owes_sighandler (home : AtHome server listener p) :
    (kernel server sockfd).Owes (Entitled server listener) (fun _ => AtHome server listener)
      sighandler p := by
  change (kernel server sockfd).Owes _ _ (sighandler >>= pure) p
  refine owes_plain stable_home (fun _ home => home.toSettled) home (by simp)
    fun q _ after home answers => ?_
  obtain rfl | ⟨hangup,rfl⟩ := answers_sighandler answers
  · exact owes_done_home home
  · exact owes_done_home (home.reload hangup)

/-- Behind accept() with the connection `number`. -/
structure Accepted (server : ServerType) (listener : Own) (number : Nat) (p : Own) : Prop
    extends AtHome server listener p where
  ticket : p.ticket = some number
  current : p.conf ∈ p.inForce

theorem stable_accepted {number : Nat} : (kernel server sockfd).Stable (Accepted server listener number) :=
  stable_reload fun _ hangup accepted =>
    ⟨accepted.toAtHome.reload hangup,accepted.ticket,List.mem_cons_self⟩

/-- The rounds of all servers begin alike. -/
theorem owes_accept {fd : Nat} {next : Option Nat → Serving Unit} (home : AtHome server listener p)
    (fails : next none = sighandler)
    (rest : ∀ q new number, Accepted server listener number q →
      (kernel server sockfd).Owes (Entitled server listener) (fun _ => AtHome server listener)
        (next (some new)) q) :
    (kernel server sockfd).Owes (Entitled server listener) (fun _ => AtHome server listener)
      (accept fd >>= next) p := by
  refine owes_plain stable_home (fun _ home => home.toSettled) home (by simp)
    fun q result after home answers => ?_
  obtain ⟨rfl,rfl⟩ | ⟨new,number,rfl,_,rfl⟩ := answers_accept answers
  · rw [fails]
    exact owes_sighandler home
  · exact rest _ new number ⟨⟨⟨home.single,home.unmoved⟩,home.listening⟩,rfl,by simp⟩

theorem owes_close {fd : Nat} (home : AtHome server listener p) :
    (kernel server sockfd).Owes (Entitled server listener) (fun _ => AtHome server listener)
      (do let _ ← close fd) p := by
  refine owes_plain stable_home (fun _ home => home.toSettled) home (by simp)
    fun q _ after home answers => ?_
  obtain rfl := answers_close answers
  exact owes_done_home ⟨⟨home.single,home.unmoved⟩,home.listening⟩

theorem concurrentServer_settles (home : AtHome .concurrent listener p) :
    (kernel .concurrent sockfd).Owes (Entitled .concurrent listener) (fun _ => AtHome .concurrent listener)
      (concurrentServer sockfd handleNetworkConnection) p := by
  refine owes_accept home rfl fun q new number accepted => ?_
  refine owes_plain stable_accepted (fun _ accepted => accepted.toSettled) accepted (by simp)
    fun q childpid after accepted answers => ?_
  obtain ⟨nonzero,rfl⟩ | ⟨rfl,rfl⟩ := answers_fork answers
  · rw [if_neg nonzero]
    exact owes_close ⟨⟨accepted.single,accepted.unmoved⟩,accepted.listening⟩
  · rw [if_pos rfl]
    have entered : Entered .concurrent (some number) {q with serves := q.ticket} :=
      ⟨accepted.single,accepted.ticket,by simp,accepted.current⟩
    refine owes_entered (fun _ => True) (fun _ _ => id) entered trivial (by simp)
      fun q _ after entered _ answers => ?_
    obtain rfl := answers_close answers
    have entered : Entered .concurrent (some number)
        {q with descriptors := Function.update q.descriptors sockfd none} :=
      ⟨entered.single,entered.serves,entered.forked,entered.current⟩
    exact (handleNetworkConnection_confines entered new).bind fun ret q entered =>
      owes_exit_entered ret entered

theorem iterativeServer_settles (inProcess : server ≠ .concurrent) (home : AtHome server listener p) :
    (kernel server sockfd).Owes (Entitled server listener) (fun _ => AtHome server listener)
      (iterativeServer sockfd handleNetworkConnection) p := by
  have child (concurrent : server = .concurrent) : False := inProcess concurrent
  refine owes_accept home rfl fun q new number accepted => ?_
  have entered : Entered server q.serves q :=
    ⟨accepted.single,rfl,fun concurrent => (child concurrent).elim,accepted.current⟩
  refine (handleNetworkConnection_confines entered new).bind fun _ q entered => ?_
  exact owes_close ⟨entered.settled,fun concurrent => (child concurrent).elim⟩

theorem serverInit_settles (home : AtHome server listener p) :
    (kernel server sockfd).Owes (Entitled server listener) (fun _ => AtHome server listener)
      (serverInit server sockfd handleNetworkConnection) p := by
  cases server with
  | concurrent => exact concurrentServer_settles home
  | iterative => exact iterativeServer_settles (by simp) home
  | rawTcpGateway => exact iterativeServer_settles (by simp) home

/-- The supplementary groups are the one thing of an identity that nothing changes. -/
theorem groups_kept {groups : List Nat} {c : ServerCall} {result : c.Result} {after : Own}
    (same : p.groups = groups) (answers : (kernel server sockfd).Answers c p result after) :
    after.groups = groups := by
  cases c with
  | readConf =>
    obtain ⟨_,rfl⟩ := answers_readConf answers
    exact same
  | accept fd =>
    obtain ⟨_,rfl⟩ | ⟨_,_,_,_,rfl⟩ := answers_accept answers
    · exact same
    · exact same
  | sighandler =>
    obtain rfl | ⟨_,rfl⟩ := answers_sighandler answers
    · exact same
    · exact same
  | fork =>
    obtain ⟨_,rfl⟩ | ⟨_,rfl⟩ := answers_fork answers
    · exact same
    · exact same
  | close fd =>
    obtain rfl := answers_close answers
    exact same
  | resetSignals =>
    obtain rfl := answers_resetSignals answers
    exact same
  | chdir directory =>
    obtain ⟨_,rfl⟩ | ⟨_,rfl⟩ := answers_chdir answers
    · exact same
    · exact same
  | setgid gid =>
    obtain ⟨_,rfl⟩ | ⟨_,_,_,rfl⟩ := answers_setgid answers
    · exact same
    · exact same
  | setuid uid =>
    obtain ⟨_,rfl⟩ | ⟨_,_,_,rfl⟩ := answers_setuid answers
    · exact same
    · exact same
  | parentAcceptSocketConnection fd =>
    obtain ⟨_,rfl⟩ := answers_parentAcceptSocketConnection answers
    exact same
  | disconnect fd =>
    obtain rfl := answers_disconnect answers
    exact same
  | exit status => exact result.elim

end

/-- Whatever the processes do in which order, whatever their calls answer and whenever a SIGHUP
replaces the configuration: a session runs under IDs and in a directory that were configured
since its connection was accepted, with the supplementary groups that the listener was started
with, and the listener of a concurrent server keeps what it was started with. -/
theorem sessions_confined (server : ServerType) (sockfd : Nat) (listener : Own)
    (single : Single listener.user listener.group) (parent : listener.serves = none)
    (turns : List (Dispatch Outcome Hangup)) :
    ∀ p ∈ (Machine.run (kernel server sockfd).step (start listener) turns).all,
      (∀ fd, session p = some fd → Confined p.own) ∧ p.own.groups = listener.groups ∧
        (server = .concurrent → p.code ≠ none → p.own.serves = none →
          p.own.toIdentity = listener.toIdentity) := by
  intro p member
  have first : AtHome server listener listener := ⟨⟨single,fun _ _ => rfl⟩,fun _ => parent⟩
  have upholds : (kernel server sockfd).Upholds (Entitled server listener) (AtHome server listener)
      (fun _ => True) p :=
    run_upholds (fun _ home => serverInit_settles home) (fun _ => trivial)
      (s := start listener) (List.forall_mem_singleton.mpr fun _ => stable_home.later first) turns p member
  refine ⟨?_,?_,?_⟩
  · intro fd within
    obtain ⟨next,code⟩ := session_code within
    exact (upholds.called code).2 fd rfl
  · have stable : (kernel server sockfd).Stable fun p => p.groups = listener.groups :=
      stable_reload fun _ _ => id
    exact run_always stable (fun _ _ _ _ => groups_kept) (fun _ => id) (s := start listener)
      (List.forall_mem_singleton.mpr rfl) turns p member
  · intro concurrent alive
    have settled : Settled server listener p.own :=
      upholds.alive alive (fun _ _ entitled => entitled.1) (fun _ home => home.toSettled)
    exact settled.unmoved concurrent

/-- A listening process that root has started, with its socket on descriptor 3. -/
def rootListener (conf : Conf) (serialPorts : List Pool.PooledPort) : Own where
  user := Ids.all 0
  group := Ids.all 0
  groups := [0]
  directory := []
  handlers := .parentSignalReceived
  conf := conf
  globals := ⟨serialPorts,none⟩
  inForce := []
  descriptors fd := if fd = 3 then some .listening else none
  serves := none
  ticket := none

/-- SIGHUP reaches an iterative server between setgid() and setuid(): the session has the group
and the directory of one configuration and the user of the other. -/
theorem sessions_confined_root :
    let listener := rootListener ⟨.iterative,"/var/spool",1000,100⟩ []
    let hangup : Hangup := ⟨⟨.iterative,"/tmp",1001,101⟩,[]⟩
    let s := Machine.run (kernel .iterative 3).step (start listener)
      [.proceed 0 .fails,.proceed 0 (.gives 4),.proceed 0 .fails,.proceed 0 .fails,
        .proceed 0 (.gives 0),.proceed 0 .fails,.proceed 0 (.gives 0),.signal 0 hangup,
        .proceed 0 .fails,.proceed 0 (.gives 0)]
    ∃ p ∈ s.all, session p = some 4 ∧ p.own.user = Ids.all 1001 ∧ p.own.group = Ids.all 100 ∧
      Confined p.own ∧ p.own.groups = [0] := by
  intro listener hangup s
  have found : s.all.any fun p => session p = some 4 ∧ p.own.user = Ids.all 1001 ∧
      p.own.group = Ids.all 100 := by decide +kernel
  obtain ⟨p,member,there⟩ := List.any_eq_true.mp found
  obtain ⟨within,user,group⟩ := of_decide_eq_true there
  obtain ⟨confined,groups,_⟩ :=
    sessions_confined .iterative 3 listener ⟨⟨0,rfl⟩,0,rfl⟩ rfl _ p member
  exact ⟨p,member,within,user,group,confined 4 within,groups⟩

end SerialIp.Servers
