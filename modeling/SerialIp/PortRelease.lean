import SerialIp.PortSelection

/-! What the connections that one process handles one after the other lock, open and
store in the global pointer, and what they give back. Logging and the allocation of
settings are left out; the session is a call, once its buffers are there. -/
namespace SerialIp.Pool
open Library Library.Program

/-- `si` is the place of the port it points to. -/
structure Globals where
  ports : List PooledPort
  si : Option Nat

abbrev unlockUucpLockfile (port : Nat) : Pooling Int := invoke (PortCall.unlockUucpLockfile port)
abbrev openDevice (port : Nat) : Pooling Int := invoke (PortCall.openDevice port)
abbrev close (fd : Int) : Pooling Int := invoke (PortCall.close fd)
abbrev fcntlGetfl (fd : Int) : Pooling Int := invoke (PortCall.fcntlGetfl fd)
abbrev fcntlSetfl (fd : Int) (nonblock : Bool) (flags : Int) : Pooling Int :=
  invoke (PortCall.fcntlSetfl fd nonblock flags)
abbrev setsockopt (sockfd : Int) : Pooling Int := invoke (PortCall.setsockopt sockfd)
abbrev tcgetattr (fd : Int) : Pooling (Option Termios) := invoke (PortCall.tcgetattr fd)
abbrev cfsetospeed (speed : BitVec 32) : Pooling Int := invoke (PortCall.cfsetospeed speed)
abbrev cfsetispeed (speed : BitVec 32) : Pooling Int := invoke (PortCall.cfsetispeed speed)
abbrev tcsetattr (fd : Int) (setting : Termios) : Pooling Int := invoke (PortCall.tcsetattr fd setting)
abbrev tcflush (fd : Int) : Pooling Int := invoke (PortCall.tcflush fd)
abbrev bfmalloc : Pooling Bool := invoke PortCall.bfmalloc
abbrev communicate (sockfd fd : Int) : Pooling Unit := invoke (PortCall.communicate sockfd fd)

def releaseSerialPort (ports : List PooledPort) (r : Nat) : Pooling (Int × List PooledPort) :=
  match ports[r]? with
  | none => return (1,ports)
  | some port =>
    match port.device with
    | none => return (1,ports)
    | some _ => do
      let ret ← unlockUucpLockfile r
      return (ret,ports.set r {port with lockfile := none})

def setNonblock (fd : Int) (nonblock : Bool) : Pooling Int := do
  let flags ← fcntlGetfl fd
  if flags ≠ -1 then fcntlSetfl fd nonblock flags else return flags

def flush (wanted : Bool) (fd : Int) : Pooling Int :=
  if wanted then tcflush fd else return 0

/-- The settings that cfsetospeed leaves, which may refuse. -/
def storeOspeed (setting : Termios) (speed : BitVec 32) : Pooling Termios := do
  let ret ← cfsetospeed speed
  return if ret = 0 then setting.cfsetospeed speed else setting

def serialInitTermios (port : SerialPort) (fd : Int) : Pooling Int := do
  match ← tcgetattr fd with
  | none => return -1
  | some oldSetting =>
    match ← tcgetattr fd with
    | none => return -1
    | some newSetting =>
      let speed := ulong2speedT port.speed
      let ret ← cfsetospeed speed
      if ret ≠ 0 then return ret
      let ret ← cfsetispeed speed
      if ret ≠ 0 then return ret
      let ret ← tcsetattr fd (port.configure newSetting)
      if ret ≠ 0 then
        let _ ← tcsetattr fd oldSetting
        return ret
      return 0

/-- The port with its descriptor; `none` outside while the selection has not ended. -/
def serialPortInit (fuel : Nat) (ports : List PooledPort) :
    Pooling (Option (Option (Nat × SerialPort × Int) × List PooledPort)) := do
  match ← selectSerialPort fuel ports with
  | none => return none
  | some (none,ports) => return some (none,ports)
  | some (some r,ports) =>
    match ports[r]? with
    | none => return some (none,ports)
    | some port =>
      let fd ← openDevice r
      if fd < 0 then
        let (_,ports) ← releaseSerialPort ports r
        return some (none,ports)
      let ret ← serialInitTermios port.toSerialPort fd
      if ret ≠ 0 then
        let _ ← close fd
        let (_,ports) ← releaseSerialPort ports r
        return some (none,ports)
      let _ ← setNonblock fd false
      let _ ← flush port.connFlush fd
      return some (some (r,port.toSerialPort,fd),ports)

def networkInit (sockfd : Int) : Pooling Nat := do
  let opt ← setsockopt sockfd
  let flags ← setNonblock sockfd false
  return (if opt < 0 then 1 else 0) + (if flags = -1 then 1 else 0)

def serialIpCommunicationProcess (sockfd fd : Int) : Pooling Int := do
  let socketToSerial ← bfmalloc
  let serialToSocket ← bfmalloc
  let sabreToSocket ← bfmalloc
  if socketToSerial && serialToSocket && sabreToSocket then
    communicate sockfd fd
    return 0
  else return 1

/-- It returns the descriptor that it leaves its caller. -/
def serialCleanup (ports : List PooledPort) (r : Nat) (port : SerialPort) (fd : Int)
    (oldSetting newSetting : Termios) : Pooling (Int × List PooledPort) := do
  let _ ← setNonblock fd true
  let currentSpeed := newSetting.cfgetospeed
  let newSetting ← storeOspeed newSetting B0
  let _ ← tcsetattr fd newSetting
  let newSetting ← storeOspeed newSetting currentSpeed
  let _ ← tcsetattr fd newSetting
  let _ ← flush port.discFlush fd
  let _ ← tcsetattr fd oldSetting
  let _ ← close fd
  let (_,ports) ← releaseSerialPort ports r
  return (-1,ports)

def parentAcceptSocketConnection (fuel : Nat) (sockfd : Int) (oldSetting newSetting : Termios)
    (g : Globals) : Pooling (Option (Int × Globals)) := do
  match ← serialPortInit fuel g.ports with
  | none => return none
  | some (none,ports) => return some (1,{g with ports := ports})
  | some (some (r,port,fd),ports) =>
    let g := {g with ports := ports, si := some r}
    let _ ← networkInit sockfd
    let _ ← serialIpCommunicationProcess sockfd fd
    let (_,ports) ← serialCleanup g.ports r port fd oldSetting newSetting
    return some (0,{g with ports := ports, si := none})

inductive Event
  | locked (port : Nat)
  | unlocked (port : Nat)
  | opened (port : Nat) (fd : Int)
  | closed (fd : Int)
  deriving DecidableEq

def event : Exchange PortCall PortCall.Result → Option Event
  | ⟨.createUucpLockfile port,some _⟩ => some (.locked port)
  | ⟨.unlockUucpLockfile port,_⟩ => some (.unlocked port)
  | ⟨.openDevice port,fd⟩ => if fd < 0 then none else some (.opened port fd)
  | ⟨.close fd,_⟩ => some (.closed fd)
  | _ => none

def events (trace : Trace) : List Event := trace.filterMap event

/-- A call of which no answer takes or gives back anything. -/
def Quiet (c : PortCall) : Prop := ∀ answer, event ⟨c,answer⟩ = none

theorem events_append (early late : Trace) : events (early ++ late) = events early ++ events late :=
  List.filterMap_append ..

theorem events_opened {fd : Int} (fine : ¬fd < 0) (port : Nat) (rest : Trace) :
    events (⟨.openDevice port,fd⟩::rest) = .opened port fd::events rest :=
  List.filterMap_cons_some (if_neg fine)

theorem events_unopened {fd : Int} (fails : fd < 0) (port : Nat) (rest : Trace) :
    events (⟨.openDevice port,fd⟩::rest) = events rest :=
  List.filterMap_cons_none (if_pos fails)

theorem setNonblock_quiet (fd : Int) (nonblock : Bool) : (setNonblock fd nonblock).Only Quiet := by
  refine .bind (.invoke fun _ => rfl) (fun flags => ?_)
  split
  · exact .invoke fun _ => rfl
  · trivial

theorem flush_quiet (wanted : Bool) (fd : Int) : (flush wanted fd).Only Quiet := by
  unfold flush
  split
  · exact .invoke fun _ => rfl
  · trivial

theorem storeOspeed_quiet (setting : Termios) (speed : BitVec 32) :
    (storeOspeed setting speed).Only Quiet :=
  .bind (.invoke fun _ => rfl) fun _ => trivial

theorem serialInitTermios_quiet (port : SerialPort) (fd : Int) :
    (serialInitTermios port fd).Only Quiet := by
  refine .bind (.invoke fun _ => rfl) (fun old => ?_)
  split
  · trivial
  refine .bind (.invoke fun _ => rfl) (fun new => ?_)
  split
  · trivial
  refine .bind (.invoke fun _ => rfl) (fun ret => ?_)
  split
  · trivial
  refine .bind (.invoke fun _ => rfl) (fun ret => ?_)
  split
  · trivial
  refine .bind (.invoke fun _ => rfl) (fun ret => ?_)
  split
  · exact .bind (.invoke fun _ => rfl) fun _ => trivial
  · trivial

theorem networkInit_quiet (sockfd : Int) : (networkInit sockfd).Only Quiet :=
  .bind (.invoke fun _ => rfl) fun _ => .bind (setNonblock_quiet sockfd false) fun _ => trivial

theorem serialIpCommunicationProcess_quiet (sockfd fd : Int) :
    (serialIpCommunicationProcess sockfd fd).Only Quiet := by
  refine .bind (.invoke fun _ => rfl) fun _ => .bind (.invoke fun _ => rfl) fun _ =>
    .bind (.invoke fun _ => rfl) fun _ => ?_
  split
  · exact .bind (.invoke fun _ => rfl) fun _ => trivial
  · trivial

section
variable {W α : Type} {act : (c : PortCall) → W → c.Result → W → Prop} {w after : W} {trace : Trace}

theorem events_bind {β : Type} {first : Pooling β} {second : β → Pooling α} {value : α}
    (quiet : first.Only Quiet) (runs : (first >>= second).Runs act trace w value after) :
    ∃ between rest mid, events trace = events rest ∧ (second between).Runs act rest mid value after :=
  runs.unseen_bind quiet

/-- The lockfile field of the port is NULL. -/
def Unlocked (ports : List PooledPort) (r : Nat) : Prop :=
  ∃ port, ports[r]? = some port ∧ port.lockfile = none

theorem selectLoop_runs {fuel nbusy : Nat} {ports later : List PooledPort} {selected : Option Nat}
    (runs : (selectLoop fuel nbusy ports).Runs act trace w (some (selected,later)) after) :
    selected = none ∧ events trace = [] ∨
      ∃ r port, selected = some r ∧ later[r]? = some port ∧ events trace = [.locked r] := by
  induction fuel generalizing nbusy ports trace w with
  | zero => exact nomatch runs.2.1
  | succ fuel ih =>
    rw [selectLoop] at runs
    split at runs
    · dsimp only at runs
      split at runs
      · exact ih runs
      rename_i port found
      split at runs
      · exact ih runs
      obtain ⟨locked,rest,mid,rfl,_,onward⟩ := runs_invoke_bind.mp runs
      cases locked with
      | none =>
        have failed : events (⟨.createUucpLockfile 0,none⟩::rest) = events rest := rfl
        rw [failed]
        exact ih onward
      | some path =>
        obtain ⟨copied,rest,mid,rfl,_,rfl,last,_⟩ := runs_invoke_bind.mp onward
        obtain ⟨rfl,rfl⟩ := Prod.mk.inj (Option.some.inj last)
        obtain ⟨inside,_⟩ := List.getElem?_eq_some_iff.mp found
        exact Or.inr ⟨0,_,rfl,List.getElem?_set_self inside,rfl⟩
    · obtain ⟨rfl,same,_⟩ := runs
      obtain ⟨rfl,rfl⟩ := Prod.mk.inj (Option.some.inj same)
      exact Or.inl ⟨rfl,rfl⟩

theorem releaseSerialPort_runs {ports : List PooledPort} {r : Nat} {port : PooledPort}
    {value : Int × List PooledPort} (found : ports[r]? = some port)
    (runs : (releaseSerialPort ports r).Runs act trace w value after) :
    events trace = [.unlocked r] ∧ Unlocked value.2 r := by
  unfold releaseSerialPort at runs
  rw [found] at runs
  dsimp only at runs
  split at runs
  · exact absurd ‹_› port.named
  · obtain ⟨ret,rest,mid,rfl,_,rfl,rfl,_⟩ := runs_invoke_bind.mp runs
    obtain ⟨inside,_⟩ := List.getElem?_eq_some_iff.mp found
    exact ⟨rfl,_,List.getElem?_set_self inside,rfl⟩

theorem serialCleanup_runs {ports : List PooledPort} {r : Nat} {port : PooledPort} {info : SerialPort}
    {fd : Int} {oldSetting newSetting : Termios} {value : Int × List PooledPort}
    (found : ports[r]? = some port)
    (runs : (serialCleanup ports r info fd oldSetting newSetting).Runs act trace w value after) :
    value.1 = -1 ∧ events trace = [.closed fd,.unlocked r] ∧ Unlocked value.2 r := by
  have settings (setting : Termios) : (tcsetattr fd setting).Only Quiet := .invoke fun _ => rfl
  obtain ⟨_,_,_,same,runs⟩ := events_bind (setNonblock_quiet fd true) runs
  rw [same]
  obtain ⟨hung,_,_,same,runs⟩ := events_bind (storeOspeed_quiet newSetting B0) runs
  rw [same]
  obtain ⟨_,_,_,same,runs⟩ := events_bind (settings hung) runs
  rw [same]
  obtain ⟨restored,_,_,same,runs⟩ := events_bind (storeOspeed_quiet hung newSetting.cfgetospeed) runs
  rw [same]
  obtain ⟨_,_,_,same,runs⟩ := events_bind (settings restored) runs
  rw [same]
  obtain ⟨_,_,_,same,runs⟩ := events_bind (flush_quiet info.discFlush fd) runs
  rw [same]
  obtain ⟨_,_,_,same,runs⟩ := events_bind (settings oldSetting) runs
  rw [same]
  obtain ⟨_,closed,_,rfl,_,runs⟩ := runs_invoke_bind.mp runs
  obtain ⟨early,late,_,_,rfl,releases,rfl,rfl,_⟩ := runs_bind.mp runs
  obtain ⟨unlocks,null⟩ := releaseSerialPort_runs found releases
  refine ⟨rfl,?_,null⟩
  rw [List.append_nil]
  exact congrArg (List.cons (.closed fd)) unlocks

/-- Everything is given back in turn, or nothing was taken. -/
def Returned (ports : List PooledPort) (events : List Event) : Prop :=
  events = [] ∨ ∃ r, Unlocked ports r ∧ (events = [.locked r,.unlocked r] ∨
    ∃ fd, events = [.locked r,.opened r fd,.closed fd,.unlocked r])

theorem serialPortInit_runs {fuel : Nat} {ports later : List PooledPort}
    {selected : Option (Nat × SerialPort × Int)}
    (runs : (serialPortInit fuel ports).Runs act trace w (some (selected,later)) after) :
    selected = none ∧ Returned later (events trace) ∨ ∃ r port info fd, selected = some (r,info,fd) ∧
      later[r]? = some port ∧ events trace = [.locked r,.opened r fd] := by
  obtain ⟨early,late,chosen,_,rfl,selects,runs⟩ := runs_bind.mp runs
  rw [events_append]
  split at runs
  · exact nomatch runs.2.1
  · obtain ⟨rfl,same,_⟩ := runs
    obtain ⟨rfl,rfl⟩ := Prod.mk.inj (Option.some.inj same)
    obtain ⟨_,nothing⟩ | ⟨_,_,chosen,_⟩ := selectLoop_runs selects
    · exact Or.inl ⟨rfl,Or.inl (by rw [nothing]; rfl)⟩
    · contradiction
  · rename_i r ports
    obtain ⟨none,_⟩ | ⟨_,port,same,found,locks⟩ := selectLoop_runs selects
    · contradiction
    obtain rfl := Option.some.inj same
    rw [locks]
    dsimp only at runs
    rw [found] at runs
    obtain ⟨fd,rest,_,rfl,_,runs⟩ := runs_invoke_bind.mp runs
    split at runs
    · obtain ⟨early,late,_,_,rfl,releases,rfl,value,_⟩ := runs_bind.mp runs
      obtain ⟨rfl,rfl⟩ := Prod.mk.inj (Option.some.inj value)
      obtain ⟨unlocks,null⟩ := releaseSerialPort_runs found releases
      rw [events_unopened ‹_›,List.append_nil,unlocks]
      exact Or.inl ⟨rfl,Or.inr ⟨r,null,Or.inl rfl⟩⟩
    rw [events_opened ‹_›]
    obtain ⟨ret,_,_,same,runs⟩ := events_bind (serialInitTermios_quiet port.toSerialPort fd) runs
    rw [same]
    split at runs
    · obtain ⟨_,closed,_,rfl,_,runs⟩ := runs_invoke_bind.mp runs
      obtain ⟨early,late,_,_,rfl,releases,rfl,value,_⟩ := runs_bind.mp runs
      obtain ⟨rfl,rfl⟩ := Prod.mk.inj (Option.some.inj value)
      obtain ⟨unlocks,null⟩ := releaseSerialPort_runs found releases
      refine Or.inl ⟨rfl,Or.inr ⟨r,null,Or.inr ⟨fd,?_⟩⟩⟩
      rw [List.append_nil]
      exact congrArg (fun tail => [.locked r,.opened r fd,.closed fd] ++ tail) unlocks
    · obtain ⟨_,_,_,same,runs⟩ := events_bind (setNonblock_quiet fd false) runs
      rw [same]
      obtain ⟨_,_,_,same,runs⟩ := events_bind (flush_quiet port.connFlush fd) runs
      rw [same]
      obtain ⟨rfl,value,_⟩ := runs
      obtain ⟨rfl,rfl⟩ := Prod.mk.inj (Option.some.inj value)
      exact Or.inr ⟨r,port,_,fd,rfl,found,rfl⟩

theorem parentAcceptSocketConnection_runs {fuel : Nat} {sockfd : Int} {oldSetting newSetting : Termios}
    {g later : Globals} {ret : Int}
    (runs : (parentAcceptSocketConnection fuel sockfd oldSetting newSetting g).Runs act trace w
      (some (ret,later)) after) :
    (g.si = none → later.si = none) ∧ Returned later.ports (events trace) := by
  obtain ⟨early,late,chosen,_,rfl,begins,runs⟩ := runs_bind.mp runs
  rw [events_append]
  split at runs
  · exact nomatch runs.2.1
  · obtain ⟨rfl,same,_⟩ := runs
    obtain ⟨rfl,rfl⟩ := Prod.mk.inj (Option.some.inj same)
    obtain ⟨_,returned⟩ | ⟨_,_,_,_,chosen,_⟩ := serialPortInit_runs begins
    · refine ⟨id,?_⟩
      rwa [show events [] = [] from rfl,List.append_nil]
    · contradiction
  · obtain ⟨none,_⟩ | ⟨_,_,_,_,chosen,found,taken⟩ := serialPortInit_runs begins
    · contradiction
    obtain ⟨rfl,rfl,rfl⟩ := Option.some.inj chosen
    rw [taken]
    obtain ⟨_,_,_,same,runs⟩ := events_bind (networkInit_quiet sockfd) runs
    rw [same]
    obtain ⟨_,_,_,same,runs⟩ := events_bind (serialIpCommunicationProcess_quiet sockfd _) runs
    rw [same]
    obtain ⟨early,late,_,_,rfl,cleans,rfl,value,_⟩ := runs_bind.mp runs
    obtain ⟨rfl,rfl⟩ := Prod.mk.inj (Option.some.inj value)
    obtain ⟨_,returns,unlocked⟩ := serialCleanup_runs found cleans
    rw [List.append_nil,returns]
    exact ⟨fun _ => rfl,Or.inr ⟨_,unlocked,Or.inr ⟨_,rfl⟩⟩⟩

end

/-- How the calls act on the device whose line settings SerialPort.lean follows. -/
def deviceActs : (c : PortCall) → SerialDevice → c.Result → SerialDevice → Prop
  | .tcgetattr _,device,answer,after => device.tcgetattr = (answer,after)
  | .tcsetattr _ setting,device,answer,after => device.tcsetattr setting = (answer,after)
  | .tcflush _,device,_,after => after = device.tcflush
  | .cfsetospeed _,device,answer,after | .cfsetispeed _,device,answer,after =>
    answer = 0 ∧ after = device
  | _,device,_,after => after = device

/-- A call that leaves the device as it is. -/
def Still (c : PortCall) : Prop :=
  ∀ device answer after, deviceActs c device answer after → after = device

section
variable {β : Type} {port : SerialPort} {fd : Int} {oldSetting newSetting : Termios}
  {device after : SerialDevice} {trace : Trace}

theorem serialInitTermios_device {ret : Int}
    (runs : (serialInitTermios port fd).Runs deviceActs trace device ret after) :
    SerialIp.serialInitTermios port oldSetting newSetting device = (ret,after) := by
  unfold SerialIp.serialInitTermios
  obtain ⟨first,_,mid,_,reads,runs⟩ := runs_invoke_bind.mp runs
  rw [show device.tcgetattr = (first,mid) from reads]
  cases first with
  | none =>
    obtain ⟨_,rfl,rfl⟩ := runs
    rfl
  | some old =>
    obtain ⟨second,_,later,_,again,runs⟩ := runs_invoke_bind.mp runs
    dsimp only
    rw [show mid.tcgetattr = (second,later) from again]
    cases second with
    | none =>
      obtain ⟨_,rfl,rfl⟩ := runs
      rfl
    | some new =>
      obtain ⟨_,_,_,_,⟨fine,same⟩,runs⟩ := runs_invoke_bind.mp runs
      rw [fine,same] at runs
      obtain ⟨_,_,_,_,⟨good,kept⟩,runs⟩ := runs_invoke_bind.mp runs
      rw [good,kept] at runs
      obtain ⟨stored,_,last,_,writes,runs⟩ := runs_invoke_bind.mp runs
      dsimp only
      rw [show later.tcsetattr (port.configure new) = (stored,last) from writes]
      dsimp only
      split at runs
      · obtain ⟨_,_,_,_,restores,_,rfl,rfl⟩ := runs_invoke_bind.mp runs
        rw [if_pos ‹_›,show last.tcsetattr old = (_,after) from restores]
      · obtain ⟨_,rfl,rfl⟩ := runs
        rw [if_neg ‹_›]

theorem setNonblock_still (fd : Int) (nonblock : Bool) : (setNonblock fd nonblock).Only Still := by
  refine .bind (.invoke fun _ _ _ => id) (fun flags => ?_)
  split
  · exact .invoke fun _ _ _ => id
  · trivial

theorem releaseSerialPort_still (ports : List PooledPort) (r : Nat) :
    (releaseSerialPort ports r).Only Still := by
  unfold releaseSerialPort
  split
  · trivial
  split
  · trivial
  · exact .bind (.invoke fun _ _ _ => id) fun _ => trivial

theorem storeOspeed_device {second : Termios → Pooling β} {setting : Termios} {speed : BitVec 32}
    {value : β} (runs : (storeOspeed setting speed >>= second).Runs deviceActs trace device value after) :
    ∃ rest, (second (setting.cfsetospeed speed)).Runs deviceActs rest device value after := by
  obtain ⟨early,late,_,mid,_,begins,onward⟩ := runs_bind.mp runs
  obtain ⟨_,_,_,_,⟨fine,same⟩,_,rfl,rfl⟩ := runs_invoke_bind.mp begins
  rw [if_pos fine,same] at onward
  exact ⟨late,onward⟩

theorem tcsetattr_device {second : Int → Pooling β} {setting : Termios} {value : β}
    (runs : (tcsetattr fd setting >>= second).Runs deviceActs trace device value after) :
    ∃ ret rest, (second ret).Runs deviceActs rest (device.tcsetattr setting).2 value after := by
  obtain ⟨ret,rest,mid,_,acts,onward⟩ := runs_invoke_bind.mp runs
  rw [show device.tcsetattr setting = (ret,mid) from acts]
  exact ⟨ret,rest,onward⟩

theorem flush_device {second : Int → Pooling β} {wanted : Bool} {value : β}
    (runs : (flush wanted fd >>= second).Runs deviceActs trace device value after) :
    ∃ ret rest, (second ret).Runs deviceActs rest (if wanted then device.tcflush else device) value
      after := by
  obtain ⟨early,late,ret,mid,_,begins,onward⟩ := runs_bind.mp runs
  unfold flush at begins
  split at begins
  · obtain ⟨_,flushed⟩ := runs_invoke.mp begins
    rw [if_pos ‹_›]
    exact ⟨ret,late,flushed ▸ onward⟩
  · obtain ⟨_,_,same⟩ := begins
    rw [if_neg ‹_›]
    exact ⟨ret,late,same ▸ onward⟩

theorem serialCleanup_device {ports : List PooledPort} {r : Nat} {value : Int × List PooledPort}
    (runs : (serialCleanup ports r port fd oldSetting newSetting).Runs deviceActs trace device value
      after) : after = SerialIp.serialCleanup port oldSetting newSetting device := by
  obtain ⟨_,_,runs⟩ := runs.stays_bind (setNonblock_still fd true)
  obtain ⟨_,runs⟩ := storeOspeed_device runs
  obtain ⟨_,_,runs⟩ := tcsetattr_device runs
  obtain ⟨_,runs⟩ := storeOspeed_device runs
  obtain ⟨_,_,runs⟩ := tcsetattr_device runs
  obtain ⟨_,_,runs⟩ := flush_device runs
  obtain ⟨_,_,runs⟩ := tcsetattr_device runs
  exact runs.stays (.bind (.invoke fun _ _ _ => id) fun _ =>
    .bind (releaseSerialPort_still ports r) fun _ => trivial)

end

/-- What was taken is given back after it, once. -/
def GivenBack (taken given : Event) (events : List Event) : Prop :=
  ∀ before after, events = before ++ taken::after → given ∉ before ∧ after.count given = 1

/-- What one call of parent_accept_socket_connection has done when it returns. -/
structure Released (happened : List Event) (g : Globals) : Prop where
  unlocked : ∀ r, GivenBack (.locked r) (.unlocked r) happened
  lockfile : ∀ r, .locked r ∈ happened → Unlocked g.ports r
  closed : ∀ r fd, GivenBack (.opened r fd) (.closed fd) happened
  held : ∀ r, .unlocked r ∈ happened → .locked r ∈ happened
  opened : ∀ fd, .closed fd ∈ happened → ∃ r, .opened r fd ∈ happened
  null : g.si = none

theorem givenBack_absent {taken given : Event} {events : List Event} (absent : taken ∉ events) :
    GivenBack taken given events := by
  intro before after same
  rw [same] at absent
  exact absurd (List.mem_append_right before List.mem_cons_self) absent

theorem givenBack_cons {taken given first : Event} {events : List Event} (other : first ≠ taken)
    (different : first ≠ given) (back : GivenBack taken given events) :
    GivenBack taken given (first::events) := by
  intro before after same
  cases before with
  | nil => exact absurd (List.cons.inj same).1 other
  | cons head before =>
    obtain ⟨rfl,rest⟩ := List.cons.inj same
    obtain ⟨never,once⟩ := back before after rest
    exact ⟨List.not_mem_cons_of_ne_of_not_mem different.symm never,once⟩

theorem givenBack_taken {taken given : Event} {events : List Event} (absent : taken ∉ events)
    (once : events.count given = 1) : GivenBack taken given (taken::events) := by
  intro before after same
  cases before with
  | nil =>
    obtain ⟨_,rfl⟩ := List.cons.inj same
    exact ⟨List.not_mem_nil,once⟩
  | cons head before =>
    obtain ⟨_,rfl⟩ := List.cons.inj same
    exact absurd (List.mem_append_right before List.mem_cons_self) absent

/-- The one lock of a call is given back at its end. -/
theorem givenBack_locked {r : Nat} {inner : List Event}
    (apart : ∀ q, .locked q ∉ inner ∧ .unlocked q ∉ inner) (q : Nat) :
    GivenBack (.locked q) (.unlocked q) (.locked r::(inner ++ [.unlocked r])) := by
  by_cases same : q = r
  · subst same
    exact givenBack_taken (by simp [apart]) (by simp [List.count_eq_zero.mpr (apart q).2])
  · exact givenBack_absent (by simp [same,apart])

theorem Returned.released {happened : List Event} {g : Globals} (returned : Returned g.ports happened)
    (null : g.si = none) : Released happened g := by
  obtain rfl | ⟨r,unlocked,rfl | ⟨fd,rfl⟩⟩ := returned
  · exact ⟨fun _ => givenBack_absent List.not_mem_nil,nofun,fun _ _ => givenBack_absent List.not_mem_nil,
      nofun,nofun,null⟩
  · have back := givenBack_locked (r := r) (fun _ => ⟨List.not_mem_nil,List.not_mem_nil⟩)
    refine ⟨back,?_,fun _ _ => givenBack_absent (by simp),?_,by simp,null⟩
    · intro q member
      obtain rfl : q = r := by simpa using member
      exact unlocked
    · intro q member
      obtain rfl : q = r := by simpa using member
      exact List.mem_cons_self
  · have apart (q : Nat) : Event.locked q ∉ [Event.opened r fd,.closed fd] ∧
        Event.unlocked q ∉ [Event.opened r fd,.closed fd] := by simp
    refine ⟨givenBack_locked apart,?_,fun q other => ?_,?_,?_,null⟩
    · intro q member
      obtain rfl : q = r := by simpa using member
      exact unlocked
    · by_cases same : q = r ∧ other = fd
      · obtain ⟨rfl,rfl⟩ := same
        exact givenBack_cons nofun nofun (givenBack_taken (by simp) (by simp))
      · exact givenBack_absent (by simpa using same)
    · intro q member
      obtain rfl : q = r := by simpa using member
      exact List.mem_cons_self
    · intro other member
      obtain rfl : other = fd := by simpa using member
      exact ⟨r,by simp⟩

/-- With a single port every connection returns once its session does. -/
theorem parentAcceptSocketConnection_returns (fuel : Nat) (sockfd : Int)
    (oldSetting newSetting : Termios) (port : PooledPort) (si : Option Nat) :
    (parentAcceptSocketConnection (fuel + 2) sockfd oldSetting newSetting ⟨[port],si⟩).Ends
      (· ≠ none) := by
  have selects : (selectSerialPort (fuel + 2) [port]).Ends (· ≠ none) := by
    unfold selectSerialPort
    rw [selectLoop_locks rfl rfl (by simp)]
    intro locked
    cases locked with
    | some path => exact fun _ => Option.some_ne_none _
    | none =>
      change (selectLoop (fuel + 1) 1 [_]).Ends _
      rw [selectLoop_ends fuel (by simp)]
      exact Option.some_ne_none _
  have opens : (serialPortInit (fuel + 2) [port]).Ends (· ≠ none) := by
    refine .bind selects (fun chosen returned => ?_)
    split
    · exact absurd rfl returned
    · exact Option.some_ne_none _
    · split
      · exact Option.some_ne_none _
      refine .andThen _ (fun fd => ?_)
      split
      · exact .andThen _ fun _ => Option.some_ne_none _
      refine .andThen _ (fun ret => ?_)
      split
      · exact .andThen _ fun _ => .andThen _ fun _ => Option.some_ne_none _
      · exact .andThen _ fun _ => .andThen _ fun _ => Option.some_ne_none _
  refine .bind opens (fun begun returned => ?_)
  split
  · exact absurd rfl returned
  · exact Option.some_ne_none _
  · exact .andThen _ fun _ => .andThen _ fun _ => .andThen _ fun _ => Option.some_ne_none _

/-- The connections of one process up to now, each with its calls and the globals after it. -/
inductive Served : Globals → List (Trace × Globals) → Prop
  | nil (g : Globals) : Served g []
  | cons {g mid : Globals} {trace : Trace} {ret : Int} {rest : List (Trace × Globals)} (fuel : Nat)
      (sockfd : Int) (oldSetting newSetting : Termios)
      (returned : (parentAcceptSocketConnection fuel sockfd oldSetting newSetting g).Runs
        (fun _ _ _ _ => True) trace () (some (ret,mid)) ())
      (later : Served mid rest) : Served g ((trace,mid)::rest)

/-- Every connection gives back what it has taken, whatever its calls answer and
whatever connections there were before. -/
theorem connections_released (g : Globals) (history : List (Trace × Globals)) (null : g.si = none)
    (served : Served g history) : ∀ call ∈ history, Released (events call.1) call.2 := by
  induction served with
  | nil g => exact fun _ member => absurd member List.not_mem_nil
  | cons fuel sockfd oldSetting newSetting returned later ih =>
    obtain ⟨kept,balanced⟩ := parentAcceptSocketConnection_runs returned
    have null := kept null
    exact List.forall_mem_cons.mpr ⟨balanced.released null,ih null⟩

theorem served_eval {g mid : Globals} {ret : Int} {rest : List (Trace × Globals)}
    (answer : (c : PortCall) → c.Result) (fuel : Nat) (sockfd : Int) (oldSetting newSetting : Termios)
    (returns : ((parentAcceptSocketConnection fuel sockfd oldSetting newSetting g).eval answer).2 =
      some (ret,mid)) (later : Served mid rest) :
    Served g ((((parentAcceptSocketConnection fuel sockfd oldSetting newSetting g).eval answer).1,mid)::
      rest) := by
  let program := parentAcceptSocketConnection fuel sockfd oldSetting newSetting g
  have runs : program.Runs (fun _ _ _ _ => True) (program.eval answer).1 () (program.eval answer).2 () :=
    runs_eval answer program fun _ => trivial
  rw [returns] at runs
  exact .cons fuel sockfd oldSetting newSetting runs later

/-- The device cannot be opened for the first connection, and the second one is refused. -/
theorem connections_released_unopened : ∃ (first second : Trace) (mid last : Globals),
    events first = [.locked 0,.unlocked 0] ∧ ∀ call ∈ [(first,mid),(second,last)],
      Released (events call.1) call.2 := by
  refine ⟨_,_,_,_,?_,connections_released ⟨[ttymxc],none⟩ _ rfl
    (served_eval (lockable [0]) 1 4 ⟨0,0,0,0⟩ ⟨0,0,0,0⟩ rfl
      (served_eval (lockable []) 2 4 ⟨0,0,0,0⟩ ⟨0,0,0,0⟩ rfl (.nil _)))⟩
  decide

end SerialIp.Pool
