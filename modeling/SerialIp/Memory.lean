import SerialIp.Library.Heap
import SerialIp.Library.Machine
import SerialIp.SaneConfig

/-! The memory of the listening process. The strings and the tests on them are those of
the configuration reader; here are the blocks that they are in, who frees them, and the
blocks of a session. -/
namespace SerialIp.Memory
open Library

abbrev Pointer := Option Nat

/-- The block of a SERIAL_INFO and the pointers in it. -/
structure PortBlocks where
  info : Nat
  device : Pointer
  description : Pointer
  lockfile : Pointer

/-- The pointers of `conf`, and whether its server type says concurrent. -/
structure Held where
  text : StringField → Pointer
  ports : List PortBlocks
  concurrent : Bool

/-- What the reader has read so far and the pointers that it has, `description` that of the
defaults. -/
structure Reader where
  values : ConfigReader
  held : Held
  description : Pointer

/-- calloc, malloc and strdup, with the answers that are left. -/
def allocated (allocs : List Bool) : Allocating (Pointer × List Bool) := do
  let (granted,allocs) := allocate allocs
  let block ← malloc granted
  return (block,allocs)

/-- Only a string that is NULL gets a block. -/
def saveString (field : StringField) (held : Held) (allocs : List Bool) :
    Allocating (Held × List Bool) :=
  match held.text field with
  | some _ => return (held,allocs)
  | none => do
    let (str,allocs) ← allocated allocs
    return ({held with text := Function.update held.text field str},allocs)

def booleanStringHandle (allocs : List Bool) : Allocating Unit := do
  let (str,_) ← allocated allocs
  release str

namespace Held

def addPort (held : Held) (info : Nat) (device : Pointer) : Held :=
  {held with ports := held.ports ++ [⟨info,device,none,none⟩]}

/-- The pointer that was there is overwritten. -/
def describe (held : Held) (i : Nat) (description : Pointer) : Held :=
  {held with ports := held.ports.modify i fun port => {port with description := description}}

end Held

namespace Reader

def saveDescription (m : Reader) : Allocating Reader :=
  match m.values.serialDevice with
  | none => do
    release m.description
    let (str,_) ← allocated m.values.allocs
    return {m with description := str}
  | some i =>
    match m.held.ports[i]? with
    | none => return m
    | some port => do
      release port.description
      let (str,_) ← allocated m.values.allocs
      return {m with held := m.held.describe i str}

/-- The last port takes the defaults over; without a port or without their description the
program ends here. -/
def copyDefaults (m : Reader) (allocs : List Bool) : Allocating Reader :=
  match m.held.ports.length,m.description with
  | i + 1,some _ => do
    let (copy,_) ← allocated allocs
    return {m with held := m.held.describe i copy}
  | _,_ => return m

def saveDevice (m : Reader) (path : List UInt8) : Allocating Reader :=
  if path = [] then return m
  else if MAX_SPORTS ≤ m.held.ports.length then return m
  else do
    let (info,allocs) ← allocated m.values.allocs
    match info with
    | none => m.copyDefaults allocs
    | some info => do
      let (device,allocs) ← allocated allocs
      let m := {m with held := m.held.addPort info device}
      if device = none then return m else m.copyDefaults allocs

def saveText (m : Reader) (field : StringField) : Allocating Reader := do
  let (held,_) ← saveString field m.held m.values.allocs
  return {m with held := held}

def saveBoolean (m : Reader) : Allocating Reader := do
  booleanStringHandle m.values.allocs
  return m

def save (m : Reader) (entry : ConfigEntry) : Allocating Reader :=
  match entry.token with
  | .DIRECTORY => m.saveText .directory
  | .TMPDIR => m.saveText .tmpdir
  | .LOCKDIR => m.saveText .lockdir
  | .LOCKTEMPLATE => m.saveText .locktemplate
  | .DEBUGLOG => m.saveText .debuglog
  | .PIDFILE => m.saveText .pidfile
  | .USERNAME => m.saveText .user
  | .GROUP => m.saveText .group
  | .SERVERTYPE => m.saveText .serverType
  | .DEVICE => m.saveDevice entry.value
  | .DESCRIPTION => m.saveDescription
  | .REPLYPURGEDATA | .CONNFLUSH | .DISCFLUSH | .SENDLOGOUT => m.saveBoolean
  | _ => return m

/-- One turn of the loop of read_configuration_file. -/
def readLine (m : Reader) (buffer : List UInt8) : Allocating Reader := do
  let values := SerialIp.readLine m.values buffer
  match m.values.status,parseEntry (cString buffer) with
  | .reading,.ok entry =>
    let m ← m.save entry
    return {m with values := values}
  | _,_ => return {m with values := values}

end Reader

/-- The description of the defaults is never freed. -/
def readConfigurationFile (file : List UInt8) (allocs : List Bool) : Allocating Reader := do
  let (description,_) ← allocated allocs
  (fgetsLines file).foldlM Reader.readLine
    ⟨.start .initial allocs,⟨fun _ => none,[],false⟩,description⟩

/-- The strings that sane_config fills in, in its order. -/
def saneConfig (held : Held) (allocs : List Bool) : Allocating Held := do
  let fields := [StringField.serverType,.pidfile,.directory,.tmpdir,.lockdir,.locktemplate]
  let (held,_) ← fields.foldlM (fun (held,allocs) field => saveString field held allocs) (held,allocs)
  return held

/-- A restart: the data bases and the file that serial_ip_init finds, and the memory. -/
structure Restart where
  env : Environment
  configFile : Option (List UInt8)
  allocs : List Bool

def Restart.succeeds (g : Restart) : Bool := (SerialIp.serialIpInit g.env g.configFile g.allocs).isSome

/-- `none` where it exits. -/
def serialIpInit (g : Restart) : Allocating (Option Held) :=
  match g.env.fopen (g.configFile.getD (ascii "/etc/serial_ip.conf")) with
  | none => return none
  | some file => do
    let m ← readConfigurationFile file g.allocs
    if m.values.status = .reading then
      let held ← saneConfig m.held m.values.allocs
      return (SerialIp.saneConfig g.env m.values.conf m.values.allocs).map fun conf =>
        {held with concurrent := (conf.text .serverType).any (·.bytes = ascii "concurrent")}
    else return none

def freeSerialPort (port : PortBlocks) : Allocating Unit := do
  release port.device
  release port.lockfile
  free port.info

/-- `debuglog` is not among the strings that are freed. -/
def freedFields : List StringField :=
  [.directory,.tmpdir,.pidfile,.user,.group,.serverType,.lockdir,.locktemplate]

def programCleanUp (held : Held) : Allocating Unit := do
  freedFields.foldlM (fun _ field => release (held.text field)) ()
  held.ports.foldlM (fun _ port => freeSerialPort port) ()

def actionSighup (g : Restart) (held : Held) : Allocating (Option Held) := do
  programCleanUp held
  serialIpInit g

/-- What comes up while a connection is served: the SERIAL_INFO is used, or a SIGHUP comes. -/
inductive Moment
  | use
  | hangup (g : Restart)

def Moment.plain : Moment → Bool
  | use => true
  | hangup _ => false

def moments (info : Nat) : List Moment → Held → Allocating (Option Held)
  | [],held => return held
  | .use::rest,held => do
    touch info
    moments info rest held
  | .hangup g::rest,held => do
    match ← actionSighup g held with
    | none => return none
    | some held => moments info rest held

/-- The blocks of a BUFFER. -/
structure BufferBlocks where
  info : Nat
  buffp : Nat
  label : Nat

def bfmalloc (allocs : List Bool) : Allocating (Option BufferBlocks × List Bool) := do
  let (info,allocs) ← allocated allocs
  match info with
  | none => return (none,allocs)
  | some info =>
    let (buffp,allocs) ← allocated allocs
    match buffp with
    | none =>
      free info
      return (none,allocs)
    | some buffp =>
      let (label,allocs) ← allocated allocs
      match label with
      | none =>
        free buffp
        free info
        return (none,allocs)
      | some label => return (some ⟨info,buffp,label⟩,allocs)

def bffree : Option BufferBlocks → Allocating Unit
  | none => return
  | some buff => do
    free buff.label
    free buff.buffp
    free buff.info

/-- What decides about a session: whether the port can be locked, what comes up before it is
opened, whether it can be opened and set up, and what comes up before it is given back. -/
structure Session where
  allocs : List Bool
  locked : Bool
  early : List Moment
  opened : Bool
  late : List Moment

/-- The buffers of raw TCP mode are freed only if one of them could not be made. -/
def freeBuffers (raw : Bool) (network serial sabre : Option BufferBlocks) : Allocating Unit :=
  if raw && network.isSome && serial.isSome && sabre.isSome then return
  else do
    bffree network
    bffree serial
    bffree sabre

def serialIpCommunicationProcess (raw : Bool) (info : Nat) (late : List Moment) (allocs : List Bool)
    (held : Held) : Allocating (Option Held) := do
  let (network,allocs) ← bfmalloc allocs
  let (serial,allocs) ← bfmalloc allocs
  let (sabre,_) ← bfmalloc allocs
  match ← moments info late held with
  | none => return none
  | some held =>
    freeBuffers raw network serial sabre
    return held

/-- The port is the one that the caller has, whether or not `conf` still has it. -/
def releaseSerialPort (info : Nat) (held : Held) : Allocating Held := do
  touch info
  match held.ports.find? (·.info = info) with
  | none => return held
  | some port =>
    release port.lockfile
    return {held with ports := held.ports.map fun port =>
      if port.info = info then {port with lockfile := none} else port}

/-- select_serial_port only ever locks the first port; open() is the first to use it. -/
def parentAcceptSocketConnection (raw : Bool) (c : Session) (held : Held) : Allocating (Option Held) :=
  match held.ports with
  | [] => return held
  | port::ports =>
    if c.locked then do
      let (lockfile,allocs) ← allocated c.allocs
      match ← moments port.info c.early {held with ports := {port with lockfile := lockfile}::ports} with
      | none => return none
      | some held =>
        touch port.info
        if c.opened then
          match ← serialIpCommunicationProcess raw port.info c.late allocs held with
          | none => return none
          | some held =>
            let held ← releaseSerialPort port.info held
            return held
        else
          let held ← releaseSerialPort port.info held
          return held
    else return held

/-- With the child's handlers a SIGHUP does not restart the process. -/
def Session.heard (deaf : Bool) (c : Session) : Session :=
  if deaf then {c with early := c.early.filter Moment.plain, late := c.late.filter Moment.plain} else c

/-- Without pointers the process has ended; `deaf` says that it has the child's handlers and
`entered` that it is in handle_network_connection. -/
structure State where
  heap : Heap
  held : Option Held
  deaf : Bool
  entered : Bool

/-- handle_network_connection up to the session, where it may be `permitted` to change directory,
group and user, and then the session. -/
inductive Event
  | hangup (g : Restart)
  | enter (permitted : Bool)
  | session (c : Session)

namespace State

def start (g : Restart) : State :=
  let (held,heap) := Heap.run (serialIpInit g) Heap.empty
  ⟨heap,held,false,false⟩

def turn (program : Held → Allocating (Option Held)) (s : State) : State :=
  match s.held with
  | none => s
  | some held =>
    let (held,heap) := Heap.run (program held) s.heap
    {s with heap := heap, held := held}

def enter (permitted : Bool) (s : State) : State :=
  match s.held with
  | none => s
  | some held =>
    {s with held := if permitted then some held else none, deaf := s.deaf || held.concurrent, entered := permitted}

/-- What happens in one process. -/
def process (raw : Bool) (s : State) : Event → State
  | .hangup g => if s.deaf then s else s.turn (actionSighup g)
  | .enter permitted => s.enter permitted
  | .session c =>
    if s.entered then
      {s.turn (parentAcceptSocketConnection raw (c.heard s.deaf)) with entered := false}
    else s

end State

/-- The child of a concurrent server: the SIGHUPs before and behind its change of handlers. -/
structure Child where
  before : List Restart
  permitted : Bool
  behind : List Restart
  session : Session

def Child.events (child : Child) : List Event :=
  child.before.map .hangup ++ .enter child.permitted::(child.behind.map .hangup ++ [.session child.session])

inductive Round
  | event (e : Event)
  | child (child : Child)

namespace State

/-- A child serves the connection on a copy of the memory. -/
def forked (child : Child) (s : State) : State :=
  let after := Machine.run (process false) s child.events
  {s with heap := {s.heap with sound := s.heap.sound && after.heap.sound}}

/-- The parent of children serves no connection, and the other servers have no children. -/
def step (server : ServerType) (s : State) : Round → State
  | .event e =>
    match server,e with
    | .concurrent,.hangup g => s.process false (.hangup g)
    | .concurrent,_ => s
    | .iterative,e => s.process false e
    | .rawTcpGateway,e => s.process true e
  | .child child => if server = .concurrent then s.forked child else s

end State

end SerialIp.Memory
