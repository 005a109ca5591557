import SerialIp.Library.Machine
import SerialIp.SignalHandle

/-! The signals of the listening process. parent_signal_received is the installed
handler and at the same time what the accept loops call with the stored number after
every failure of accept(). -/
namespace SerialIp
open Library

/-- `actions` are the signals acted on so far, whatever their action is. -/
structure Listener where
  debugLevel : Int
  signo : Option Signal
  actions : List Signal

def parentSignalReceived (signal : Signal) (l : Listener) : Listener where
  debugLevel := debugAction signal l.debugLevel
  signo := some signal
  actions := l.actions ++ [signal]

def openDebug (level : Int) (l : Listener) : Listener := {l with debugLevel := level}

def closeDebug (l : Listener) : Listener := {l with debugLevel := 0}

/-- A connection finds no serial port, or it is served to its end. One that ends the
process ends the run. -/
inductive Connection
  | refused
  | served

/-- handle_network_connection in the listening process itself; the debug log is open
from serial_port_init to serial_cleanup. -/
def handleNetworkConnection (debuglevel : Int) : Connection → Listener → Listener
  | .refused,l => l
  | .served,l => closeDebug (openDebug debuglevel l)

/-- How one accept() ends: a signal interrupts it, it fails otherwise, or there is a
connection. -/
inductive Accept
  | interrupted (signal : Signal)
  | failed
  | accepted (connection : Connection)

/-- The branch of the loops for a failure. -/
def acceptFailed (l : Listener) : Listener :=
  match l.signo with
  | none => l
  | some signal => parentSignalReceived signal l

/-- One round of an accept loop, which differ in who serves a connection. -/
def acceptLoop (serve : Connection → Listener → Listener) (l : Listener) : Accept → Listener
  | .interrupted signal => acceptFailed (parentSignalReceived signal l)
  | .failed => acceptFailed l
  | .accepted connection => serve connection l

def concurrentServer : Listener → Accept → Listener := acceptLoop fun _ l => l

def iterativeServer (debuglevel : Int) : Listener → Accept → Listener :=
  acceptLoop (handleNetworkConnection debuglevel)

def rawTcpGateway (debuglevel : Int) : Listener → Accept → Listener :=
  acceptLoop (handleNetworkConnection debuglevel)

inductive ServerType
  | concurrent
  | iterative
  | rawTcpGateway
  deriving DecidableEq

def ServerType.loop (debuglevel : Int) : ServerType → Listener → Accept → Listener
  | concurrent => concurrentServer
  | iterative => iterativeServer debuglevel
  | rawTcpGateway => SerialIp.rawTcpGateway debuglevel

/-- The process with the level it should have: one step for each delivered signal. -/
structure Watched extends Listener where
  due : Int

def Watched.start (l : Listener) : Watched := {l with due := l.debugLevel}

def Watched.step (server : ServerType) (debuglevel : Int) (w : Watched) (accept : Accept) : Watched :=
  {server.loop debuglevel w.toListener accept with
    due := match accept with
      | .interrupted signal => clampedStep signal w.due
      | _ => w.due}

def Watched.Exact (w : Watched) : Prop := w.debugLevel = w.due

/-- The signals whose action neither ends nor restarts the program. -/
def Lasting (_ : Watched) : Accept → Prop
  | .interrupted signal => signal ∉ [.SIGTERM,.SIGINT,.SIGQUIT,.SIGHUP]
  | _ => True

/-- A signal is delivered where a second step changes nothing, a failure follows no signal
or one whose step changes nothing, and no connection is served here unless the level is 0. -/
def Steady (server : ServerType) (w : Watched) : Accept → Prop
  | .interrupted signal => (signal = .SIGUSR1 → 8 ≤ w.debugLevel) ∧ (signal = .SIGUSR2 → w.debugLevel ≤ 1)
  | .failed => (w.signo = some .SIGUSR1 → w.debugLevel = 9) ∧ (w.signo = some .SIGUSR2 → w.debugLevel = 0)
  | .accepted .served => server ≠ .concurrent → w.debugLevel = 0
  | .accepted .refused => True

namespace ServerType
variable (server : ServerType) (debuglevel : Int) (l : Listener)

/-- The handler has run once when accept() returns, and runs again in the loop. -/
theorem loop_interrupted (signal : Signal) :
    (server.loop debuglevel l (.interrupted signal)).debugLevel =
      debugAction signal (debugAction signal l.debugLevel) := by
  cases server <;> rfl

theorem loop_failed : (server.loop debuglevel l .failed).debugLevel =
    l.signo.elim l.debugLevel fun signal => debugAction signal l.debugLevel := by
  have branch : (acceptFailed l).debugLevel =
      l.signo.elim l.debugLevel fun signal => debugAction signal l.debugLevel := by
    unfold acceptFailed
    cases l.signo <;> rfl
  cases server with
  | concurrent | iterative | rawTcpGateway => exact branch

theorem loop_refused : (server.loop debuglevel l (.accepted .refused)).debugLevel = l.debugLevel := by
  cases server <;> rfl

theorem loop_served : (server.loop debuglevel l (.accepted .served)).debugLevel =
    if server = concurrent then l.debugLevel else 0 := by
  cases server <;> rfl

theorem loop_range {l : Listener} (range : InRange l.debugLevel) (accept : Accept) :
    InRange (server.loop debuglevel l accept).debugLevel := by
  have acted (signal : Signal) {level : Int} (before : InRange level) :
      InRange (debugAction signal level) := by
    rw [debugAction_clamped signal before]
    exact clampedStep_range signal before
  cases accept with
  | interrupted signal =>
    rw [loop_interrupted]
    exact acted signal (acted signal range)
  | failed =>
    rw [loop_failed]
    cases l.signo with
    | none => exact range
    | some signal => exact acted signal range
  | accepted connection =>
    cases connection with
    | refused =>
      rw [loop_refused]
      exact range
    | served =>
      rw [loop_served]
      split
      · exact range
      · exact ⟨by decide,by decide⟩

end ServerType

/-- A second step changes nothing at the ends of the range and one short of them. -/
theorem clampedStep_again (signal : Signal) {level : Int} (range : InRange level) :
    clampedStep signal (clampedStep signal level) = clampedStep signal level ↔
      (signal = .SIGUSR1 → 8 ≤ level) ∧ (signal = .SIGUSR2 → level ≤ 1) := by
  unfold InRange DBG_LV0 DBG_LV9 at range
  cases signal with
  | SIGUSR1 | SIGUSR2 =>
    simp [clampedStep,DBG_LV0,DBG_LV9]
    omega
  | SIGHUP | SIGINT | SIGQUIT | SIGPIPE | SIGTERM | SIGCLD => simp [clampedStep]

theorem clampedStep_fixed (signal : Signal) {level : Int} (range : InRange level) :
    clampedStep signal level = level ↔
      (signal = .SIGUSR1 → level = 9) ∧ (signal = .SIGUSR2 → level = 0) := by
  unfold InRange DBG_LV0 DBG_LV9 at range
  cases signal with
  | SIGUSR1 | SIGUSR2 =>
    simp [clampedStep,DBG_LV0,DBG_LV9]
    omega
  | SIGHUP | SIGINT | SIGQUIT | SIGPIPE | SIGTERM | SIGCLD => simp [clampedStep]

/-- One round keeps the level exact if and only if it is steady. -/
theorem Watched.step_exact (server : ServerType) (debuglevel : Int) {w : Watched}
    (range : InRange w.debugLevel) (exact : w.Exact) (accept : Accept) :
    (w.step server debuglevel accept).Exact ↔ Steady server w accept := by
  unfold Exact at exact
  unfold Exact step
  cases accept with
  | interrupted signal =>
    dsimp only
    rw [server.loop_interrupted,debugAction_clamped signal range,
      debugAction_clamped signal (clampedStep_range signal range),← exact]
    exact clampedStep_again signal range
  | failed =>
    dsimp only
    rw [server.loop_failed,← exact]
    unfold Steady
    cases stored : w.signo with
    | none => simp
    | some signal =>
      dsimp only [Option.elim]
      rw [debugAction_clamped signal range,clampedStep_fixed signal range]
      simp
  | accepted connection =>
    cases connection with
    | refused =>
      dsimp only
      rw [server.loop_refused]
      exact iff_of_true exact trivial
    | served =>
      dsimp only
      rw [server.loop_served,← exact]
      unfold Steady
      split
      · rename_i concurrent
        exact iff_of_true rfl (fun other => absurd concurrent other)
      · rename_i other
        exact ⟨fun zero _ => zero.symm,fun zero => (zero other).symm⟩

/-- The level is what the delivered signals make of it, one step for each, in every state
of a run if and only if every round of the run is steady. -/
theorem debugLevel_exact_iff (server : ServerType) (debuglevel : Int) (l : Listener)
    (range : InRange l.debugLevel) (rounds : List Accept)
    (lasting : Machine.Along (Watched.step server debuglevel) Lasting (Watched.start l) rounds) :
    Machine.Throughout (Watched.step server debuglevel) Watched.Exact (Watched.start l) rounds ↔
      Machine.Along (Watched.step server debuglevel) (Steady server) (Watched.start l) rounds :=
  Machine.throughout_iff_along (fun w => InRange w.debugLevel) Watched.Exact Lasting (Steady server)
    (fun _ accept inside _ => server.loop_range debuglevel inside accept)
    (fun _ accept inside exact _ => Watched.step_exact server debuglevel inside exact accept)
    range rfl lasting

theorem debugLevel_exact_iff_eight :
    Machine.Throughout (Watched.step .rawTcpGateway 3) Watched.Exact (Watched.start ⟨8,none,[]⟩)
      [.interrupted .SIGUSR1,.failed,.accepted .refused] :=
  (debugLevel_exact_iff .rawTcpGateway 3 ⟨8,none,[]⟩ ⟨by decide,by decide⟩
    [.interrupted .SIGUSR1,.failed,.accepted .refused]
    ⟨show Signal.SIGUSR1 ∉ _ by decide,trivial,trivial,trivial⟩).mpr
    ⟨⟨fun _ => by decide,nofun⟩,⟨fun _ => rfl,nofun⟩,trivial,trivial⟩

/-- Level 3 and one SIGUSR1 while accept() waits: the level goes to 5. -/
theorem signal_acted_on_twice :
    (concurrentServer ⟨3,none,[]⟩ (.interrupted .SIGUSR1)).actions = [.SIGUSR1,.SIGUSR1] ∧
    (concurrentServer ⟨3,none,[]⟩ (.interrupted .SIGUSR1)).debugLevel = 5 ∧
    ¬Machine.Throughout (Watched.step .concurrent 0) Watched.Exact (Watched.start ⟨3,none,[]⟩)
      [.interrupted .SIGUSR1] := by
  refine ⟨rfl,rfl,?_⟩
  intro all
  have level : (5 : Int) = 4 := all.2
  exact absurd level (by decide)

end SerialIp
