import SerialIp.ConfigurationEntry
import SerialIp.Library.Machine
import SerialIp.SerialPort

/-! read_configuration_file: the lines of the configuration file one after the other,
until one is in error. A line that sets up a serial port goes to whatever
`serial_device` points to. Writing through a pointer that is NULL ends the program. -/
namespace SerialIp
open Library

abbrev NO_FLOWCONTROL : Nat := 16

def MAX_SPORTS : Nat := 256

/-- A block that was allocated for a string and the string last copied to it. What a
copy that is too long does to the memory behind the block is not followed up. -/
structure Text where
  size : Nat
  bytes : List UInt8
  deriving DecidableEq

def Text.of (bytes : List UInt8) : Text := ⟨bytes.length + 1,bytes⟩

/-- The string and its NUL are inside the block. -/
def Text.Fits (t : Text) : Prop := t.bytes.length + 1 ≤ t.size

instance (t : Text) : Decidable t.Fits := inferInstanceAs (Decidable (_ ≤ _))

theorem Text.of_fits (bytes : List UInt8) : (Text.of bytes).Fits := Nat.le_refl _

inductive StringField
  | directory
  | tmpdir
  | lockdir
  | locktemplate
  | debuglog
  | pidfile
  | user
  | group
  | serverType
  deriving DecidableEq

inductive NumberField
  | debuglevel
  | timeout
  | msPollinterval
  | lsPollinterval
  | replyPurgeData
  | idletimer
  | sendLogout
  deriving DecidableEq

/-- What the lines of a section set in a `SERIAL_INFO`. -/
structure SerialSettings where
  description : Option Text
  speed : Nat
  databits : Nat
  parity : Nat
  stopbits : Nat
  flowcontrol : Nat
  connFlush : Int
  discFlush : Int

structure ConfiguredPort extends SerialSettings where
  device : Option (List UInt8)

/-- `config_t`; the pointers to strings are `text`, `number_ports` is how many `ports` there are. -/
structure Config where
  text : StringField → Option Text
  number : NumberField → Int
  uid : Nat
  gid : Nat
  ports : List ConfiguredPort

inductive Status
  | reading
  | failed
  | crashed
  deriving DecidableEq

def Status.of (error : Bool) : Status := if error then failed else reading

/-- The locals of read_configuration_file: `serialDevice` is a place in `ports`, or the
defaults. `allocs` answers the allocations to come; they succeed once it is used up. -/
structure ConfigReader where
  conf : Config
  defaults : SerialSettings
  serialDevice : Option Nat
  status : Status
  allocs : List Bool

def allocate : List Bool → Bool × List Bool
  | [] => (true,[])
  | granted::allocs => (granted,allocs)

def strdup (s : List UInt8) (allocs : List Bool) : Option Text × List Bool :=
  let (granted,allocs) := allocate allocs
  (if granted then some (.of s) else none,allocs)

/-- A store into a target, with whether it is in error. -/
abbrev Save (α : Type) := α → List Bool → Bool × α × List Bool

/-- `save_value` of type `STRING`: only a target that is NULL gets a block. -/
def saveString (value : List UInt8) : Save (Option Text)
  | some block,allocs => (false,some {block with bytes := value},allocs)
  | none,allocs =>
    let (granted,allocs) := allocate allocs
    if granted then (false,some (.of value),allocs) else (true,none,allocs)

/-- `save_value` of type `VALUE`. -/
def saveInt (value : List UInt8) : Save Int := fun _ allocs => (false,atoi value,allocs)

def booleanStringHandle (value : List UInt8) (allocs : List Bool) : Int × List Bool :=
  let (granted,allocs) := allocate allocs
  let str := stringToLower value
  if granted && str ∈ [ascii "0",ascii "off",ascii "false",ascii "no"] then (0,allocs)
  else if granted && str ∈ [ascii "1",ascii "on",ascii "true",ascii "yes"] then (1,allocs)
  else (-1,allocs)

/-- `save_value` of type `BOOLEAN`. -/
def saveBoolean (value : List UInt8) : Save Int := fun _ allocs =>
  let (i,allocs) := booleanStringHandle value allocs
  (i = -1,i,allocs)

/-- `save_value` of type `LONGVALUE`. -/
def saveLong (value : List UInt8) : Save Nat := fun _ allocs =>
  (false,(atol value % 2 ^ 64).toNat,allocs)

/-- An `int` stored into an `unsigned int`. -/
def saveUnsigned (value : List UInt8) : Save Nat := fun _ allocs =>
  (false,(atoi value % 2 ^ 32).toNat,allocs)

/-- The description is freed and set to NULL first. -/
def saveDescription (value : List UInt8) : Save SerialSettings := fun s allocs =>
  let (error,description,allocs) := saveString value none allocs
  (error,{s with description := description},allocs)

def saveSpeed (value : List UInt8) : Save SerialSettings := fun s allocs =>
  let (error,speed,allocs) := saveLong value s.speed allocs
  (error || !validSerialSpeed speed,{s with speed := speed},allocs)

def saveDatabits (value : List UInt8) : Save SerialSettings := fun s allocs =>
  let (error,databits,allocs) := saveUnsigned value s.databits allocs
  (error || databits ∉ [8,7,6,5],{s with databits := databits},allocs)

def saveParity (value : List UInt8) : Save SerialSettings := fun s allocs =>
  if strcaseeq value (ascii "none") then (false,{s with parity := PARITY_NONE},allocs)
  else if strcaseeq value (ascii "odd") then (false,{s with parity := PARITY_ODD},allocs)
  else if strcaseeq value (ascii "even") then (false,{s with parity := PARITY_EVEN},allocs)
  else (true,s,allocs)

def saveStopbits (value : List UInt8) : Save SerialSettings := fun s allocs =>
  let (error,stopbits,allocs) := saveUnsigned value s.stopbits allocs
  (error || stopbits ∉ [1,2],{s with stopbits := stopbits},allocs)

def saveFlowcontrol (value : List UInt8) : Save SerialSettings := fun s allocs =>
  if strcaseeq value (ascii "hardware") then (false,{s with flowcontrol := HARDWARE_FLOW},allocs)
  else if strcaseeq value (ascii "rts/cts") then (false,{s with flowcontrol := HARDWARE_FLOW},allocs)
  else if strcaseeq value (ascii "software") then (false,{s with flowcontrol := SOFTWARE_FLOW},allocs)
  else if strcaseeq value (ascii "xon/xoff") then (false,{s with flowcontrol := SOFTWARE_FLOW},allocs)
  else if strcaseeq value (ascii "none") then (false,{s with flowcontrol := NO_FLOWCONTROL},allocs)
  else (true,s,allocs)

def saveConnFlush (value : List UInt8) : Save SerialSettings := fun s allocs =>
  let (error,connFlush,allocs) := saveBoolean value s.connFlush allocs
  (error,{s with connFlush := connFlush},allocs)

def saveDiscFlush (value : List UInt8) : Save SerialSettings := fun s allocs =>
  let (error,discFlush,allocs) := saveBoolean value s.discFlush allocs
  (error,{s with discFlush := discFlush},allocs)

namespace ConfigReader

def onString (field : StringField) (save : Save (Option Text)) (r : ConfigReader) : ConfigReader :=
  let (error,text,allocs) := save (r.conf.text field) r.allocs
  {r with
    conf := {r.conf with text := Function.update r.conf.text field text}
    status := .of error
    allocs := allocs}

def onNumber (field : NumberField) (save : Save Int) (r : ConfigReader) : ConfigReader :=
  let (error,number,allocs) := save (r.conf.number field) r.allocs
  {r with
    conf := {r.conf with number := Function.update r.conf.number field number}
    status := .of error
    allocs := allocs}

/-- A store through `serial_device`. -/
def onSerialDevice (save : Save SerialSettings) (r : ConfigReader) : ConfigReader :=
  match r.serialDevice with
  | none =>
    let (error,settings,allocs) := save r.defaults r.allocs
    {r with defaults := settings, status := .of error, allocs := allocs}
  | some i =>
    match r.conf.ports[i]? with
    | none => {r with status := .crashed}
    | some port =>
      let (error,settings,allocs) := save port.toSerialSettings r.allocs
      {r with
        conf := {r.conf with ports := r.conf.ports.set i {port with toSerialSettings := settings}}
        status := .of error
        allocs := allocs}

end ConfigReader

/-- calloc leaves all members of a new port 0. -/
def allocSerialPort : ConfiguredPort := ⟨⟨none,0,0,0,0,0,0,0⟩,none⟩

/-- A port that finds no memory is left out, and that is no error. -/
def addSerialPortInfo (conf : Config) (devicePath : List UInt8) (allocs : List Bool) :
    Bool × Config × List Bool :=
  if devicePath = [] then (true,conf,allocs)
  else if conf.ports.length ≥ MAX_SPORTS then (true,conf,allocs)
  else
    let (granted,allocs) := allocate allocs
    if granted then
      let (device,allocs) := strdup devicePath allocs
      (device.isNone,{conf with ports := conf.ports ++ [{allocSerialPort with
        device := device.map Text.bytes}]},allocs)
    else (false,conf,allocs)

/-- The new port becomes the serial device and takes the defaults over. -/
def saveDevice (value : List UInt8) (r : ConfigReader) : ConfigReader :=
  let (error,conf,allocs) := addSerialPortInfo r.conf value r.allocs
  if error then {r with conf := conf, status := .failed, allocs := allocs}
  else
    match conf.ports.length,r.defaults.description with
    | n + 1,some description =>
      let (copy,allocs) := strdup description.bytes allocs
      {r with
        conf := {conf with ports := conf.ports.modify n fun port =>
          {port with toSerialSettings := {r.defaults with description := copy}}}
        serialDevice := some n
        allocs := allocs}
    | _,_ => {r with conf := conf, status := .crashed, allocs := allocs}

/-- What the case of a token saves, and where to. -/
inductive Action
  | skip
  | string (field : StringField) (value : List UInt8)
  | number (field : NumberField) (save : Save Int)
  | serial (save : Save SerialSettings)
  | device (path : List UInt8)

/-- The `switch` of read_configuration_file. -/
def ConfigEntry.action (entry : ConfigEntry) : Action :=
  match entry.token with
  | .COMMENT | .BLANKLINE => .skip
  | .DIRECTORY => .string .directory entry.value
  | .TMPDIR => .string .tmpdir entry.value
  | .LOCKDIR => .string .lockdir entry.value
  | .LOCKTEMPLATE => .string .locktemplate entry.value
  | .DEBUGLOG => .string .debuglog entry.value
  | .DEBUGLEVEL => .number .debuglevel (saveInt entry.value)
  | .PIDFILE => .string .pidfile entry.value
  | .TIMEOUT => .number .timeout (saveInt entry.value)
  | .USERNAME => .string .user entry.value
  | .GROUP => .string .group entry.value
  | .SERVERTYPE => .string .serverType entry.value
  | .DEVICE => .device entry.value
  | .DESCRIPTION => .serial (saveDescription entry.value)
  | .SPEED => .serial (saveSpeed entry.value)
  | .DATABITS => .serial (saveDatabits entry.value)
  | .PARITY => .serial (saveParity entry.value)
  | .STOPBITS => .serial (saveStopbits entry.value)
  | .FLOWCONTROL => .serial (saveFlowcontrol entry.value)
  | .CONNFLUSH => .serial (saveConnFlush entry.value)
  | .DISCFLUSH => .serial (saveDiscFlush entry.value)
  | .REPLYPURGEDATA => .number .replyPurgeData (saveBoolean entry.value)
  | .MS_POLLINTERVAL => .number .msPollinterval (saveInt entry.value)
  | .LS_POLLINTERVAL => .number .lsPollinterval (saveInt entry.value)
  | .IDLETIMER => .number .idletimer (saveInt entry.value)
  | .SENDLOGOUT => .number .sendLogout (saveBoolean entry.value)
  | .INVALID | .UNKNOWN => .skip

def ConfigReader.act (r : ConfigReader) : Action → ConfigReader
  | .skip => r
  | .string field value => r.onString field (saveString value)
  | .number field save => r.onNumber field save
  | .serial save => r.onSerialDevice save
  | .device path => saveDevice path r

/-- What a line as fgets returns it is about. -/
def lineAction (buffer : List UInt8) : Action :=
  match parseEntry (cString buffer) with
  | .ok entry => entry.action
  | .error _ => .skip

/-- One turn of the loop, which an error has left. -/
def readLine (r : ConfigReader) (buffer : List UInt8) : ConfigReader :=
  match r.status with
  | .reading => r.act (lineAction buffer)
  | .failed | .crashed => r

def ConfigReader.start (conf : Config) (allocs : List Bool) : ConfigReader :=
  let (description,allocs) := strdup (ascii "Sabre Lite Serial Interface") allocs
  {conf := conf
   defaults := ⟨description,9600,8,PARITY_NONE,1,HARDWARE_FLOW,0,1⟩
   serialDevice := none
   status := .reading
   allocs := allocs}

/-- What is left when the file has been read; the return value is 0 where the status is `reading`. -/
def readConfigurationFile (file : List UInt8) (conf : Config) (allocs : List Bool) : ConfigReader :=
  Machine.run readLine (.start conf allocs) (fgetsLines file)

/-- `conf` as serial_ip_init hands it over. -/
def Config.initial : Config where
  text _ := none
  number
    | .timeout => 30
    | .msPollinterval => 10
    | .lsPollinterval => 30
    | .debuglevel | .replyPurgeData | .idletimer | .sendLogout => 0
  uid := 0
  gid := 0
  ports := []

theorem lineAction_entry {line : List UInt8} {action : Action} (acts : lineAction line = action)
    (busy : action ≠ .skip) :
    ∃ entry, parseEntry (cString line) = .ok entry ∧ entry.action = action := by
  unfold lineAction at acts
  split at acts
  · exact ⟨_,‹_›,acts⟩
  · exact absurd acts.symm busy

namespace ConfigReader
variable {r : ConfigReader} {line : List UInt8}

theorem reading_before (after : (readLine r line).status = .reading) :
    r.status = .reading := by
  unfold readLine at after
  split at after
  · assumption
  · rename_i left
    exact absurd (left.symm.trans after) nofun
  · rename_i left
    exact absurd (left.symm.trans after) nofun

theorem readLine_act (before : r.status = .reading) :
    readLine r line = r.act (lineAction line) := by
  unfold readLine
  rw [before]

theorem onSerialDevice_defaults (save : Save SerialSettings)
    (points : r.serialDevice = none) : r.onSerialDevice save = {r with
      defaults := (save r.defaults r.allocs).2.1
      status := .of (save r.defaults r.allocs).1
      allocs := (save r.defaults r.allocs).2.2} := by
  unfold onSerialDevice
  rw [points]

theorem onSerialDevice_port (save : Save SerialSettings) {i : Nat}
    {port : ConfiguredPort} (points : r.serialDevice = some i) (found : r.conf.ports[i]? = some port) :
    r.onSerialDevice save = {r with
      conf := {r.conf with ports := r.conf.ports.set i {port with
        toSerialSettings := (save port.toSerialSettings r.allocs).2.1}}
      status := .of (save port.toSerialSettings r.allocs).1
      allocs := (save port.toSerialSettings r.allocs).2.2} := by
  unfold onSerialDevice
  rw [points]
  dsimp only
  rw [found]

end ConfigReader

theorem Status.of_reading {error : Bool} (reading : Status.of error = .reading) : error = false := by
  cases error
  · rfl
  · contradiction

end SerialIp
