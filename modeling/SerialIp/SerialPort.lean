import SerialIp.LineSettings
import SerialIp.RemoteControl
import SerialIp.SessionLoop

/-! The serial port around a session: serial_port_init sets the line up,
parent_accept_socket_connection runs the session and has serial_cleanup set the line
back. Both settings are structures that are passed by value, so what an inner function
stores into its parameters its caller never sees. -/
namespace SerialIp
open Library Session

abbrev CREAD : BitVec 32 := 0x80
abbrev CLOCAL : BitVec 32 := 0x800
abbrev CRTSCTS : BitVec 32 := 0x80000000
abbrev ISIG : BitVec 32 := 0x1
abbrev ICANON : BitVec 32 := 0x2
abbrev ECHO : BitVec 32 := 0x8
abbrev ECHOE : BitVec 32 := 0x10
abbrev BRKINT : BitVec 32 := 0x2
abbrev INPCK : BitVec 32 := 0x10
abbrev ISTRIP : BitVec 32 := 0x20
abbrev INLCR : BitVec 32 := 0x40
abbrev IGNCR : BitVec 32 := 0x80
abbrev ICRNL : BitVec 32 := 0x100
abbrev IXON : BitVec 32 := 0x400
abbrev IXANY : BitVec 32 := 0x800
abbrev IXOFF : BitVec 32 := 0x1000
abbrev IBAUD0 : BitVec 32 := 0x80000000
abbrev OPOST : BitVec 32 := 0x1
abbrev ONLCR : BitVec 32 := 0x4
abbrev OCRNL : BitVec 32 := 0x8
abbrev B0 : BitVec 32 := 0

abbrev PARITY_NONE : Nat := 0
abbrev PARITY_ODD : Nat := 1
abbrev PARITY_EVEN : Nat := 2
abbrev HARDWARE_FLOW : Nat := 4
abbrev SOFTWARE_FLOW : Nat := 8

structure SerialPort extends SerialInfo where
  speed : Nat
  databits : Nat
  parity : Nat
  flowcontrol : Nat
  connFlush : Bool
  discFlush : Bool

def uint2cs (dataBits : Nat) : BitVec 32 :=
  if dataBits = 8 then CS8
  else if dataBits = 7 then CS7
  else if dataBits = 6 then CS6
  else if dataBits = 5 then CS5
  else CS8

def Termios.cfsetispeed (term : Termios) (speed : BitVec 32) : Termios :=
  if speed = B0 then {term with iflag := term.iflag ||| IBAUD0}
  else {term with iflag := term.iflag &&& ~~~IBAUD0, cflag := (term.cflag &&& ~~~CBAUD) ||| speed}

/-- TCIOFLUSH drops what waits in the driver and leaves the settings alone. -/
def SerialDevice.tcflush (device : SerialDevice) : SerialDevice :=
  {device with outcomes := device.outcomes.tail}

namespace SerialPort

def controlFlags (port : SerialPort) (cflag : BitVec 32) : BitVec 32 :=
  let cflag := cflag ||| (CLOCAL ||| CREAD)
  let cflag :=
    if port.parity = PARITY_ODD then (cflag ||| PARENB ||| PARODD) &&& ~~~CSTOPB
    else if port.parity = PARITY_EVEN then (cflag ||| PARENB) &&& ~~~PARODD &&& ~~~CSTOPB
    else cflag &&& ~~~PARENB &&& ~~~CSTOPB
  let cflag := (cflag &&& ~~~CSIZE) ||| uint2cs port.databits
  if port.flowcontrol = HARDWARE_FLOW then cflag ||| CRTSCTS else cflag &&& ~~~CRTSCTS

def inputFlags (port : SerialPort) (cflag iflag : BitVec 32) : BitVec 32 :=
  let iflag :=
    if cflag &&& PARENB ≠ 0 then iflag ||| (INPCK ||| ISTRIP)
    else iflag &&& ~~~(INPCK ||| ISTRIP)
  let iflag := iflag ||| BRKINT
  let iflag :=
    if port.flowcontrol = SOFTWARE_FLOW then iflag ||| (IXON ||| IXOFF ||| IXANY)
    else iflag &&& ~~~(IXON ||| IXOFF ||| IXANY)
  iflag &&& ~~~(INLCR ||| ICRNL ||| IGNCR)

/-- What serial_init_termios makes of the settings it has read. -/
def configure (port : SerialPort) (term : Termios) : Termios :=
  let speed := ulong2speedT port.speed
  let term := (term.cfsetospeed speed).cfsetispeed speed
  let cflag := port.controlFlags term.cflag
  {iflag := port.inputFlags cflag term.iflag
   oflag := term.oflag &&& ~~~OPOST &&& ~~~(ONLCR ||| OCRNL)
   cflag := cflag
   lflag := term.lflag &&& ~~~(ICANON ||| ECHO ||| ECHOE ||| ISIG)}

end SerialPort

/-- The two settings it is given are copies, and overwritten at once. -/
def serialInitTermios (port : SerialPort) (_oldSetting _newSetting : Termios)
    (device : SerialDevice) : Int × SerialDevice :=
  match device.tcgetattr with
  | (none,device) => (-1,device)
  | (some oldSetting,device) =>
    match device.tcgetattr with
    | (none,device) => (-1,device)
    | (some newSetting,device) =>
      let (ret,device) := device.tcsetattr (port.configure newSetting)
      if ret ≠ 0 then (ret,(device.tcsetattr oldSetting).2) else (0,device)

/-- `selected` is the port that select_serial_port has locked and open() has opened. -/
def serialPortInit (selected : Option SerialPort) (oldSetting newSetting : Termios)
    (device : SerialDevice) : Option SerialPort × SerialDevice :=
  match selected with
  | none => (none,device)
  | some port =>
    let (ret,device) := serialInitTermios port oldSetting newSetting device
    if ret ≠ 0 then (none,device)
    else (some port,if port.connFlush then device.tcflush else device)

def serialCleanup (port : SerialPort) (oldSetting newSetting : Termios) (device : SerialDevice) :
    SerialDevice :=
  let currentSpeed := newSetting.cfgetospeed
  let newSetting := newSetting.cfsetospeed B0
  let device := (device.tcsetattr newSetting).2
  let device := (device.tcsetattr (newSetting.cfsetospeed currentSpeed)).2
  let device := if port.discFlush then device.tcflush else device
  (device.tcsetattr oldSetting).2

/-- One connection, with what its two local settings hold when it begins; `none` while
the session has not ended. -/
def parentAcceptSocketConnection (conf : SessionConf) (turns : List Turn)
    (selected : Option SerialPort) (oldSetting newSetting : Termios) (s : Session) :
    Option (Int × Session) :=
  match serialPortInit selected oldSetting newSetting s.device with
  | (none,device) => some (1,{s with device := device})
  | (some port,device) =>
    let t := Machine.run (SessionLoop.step conf)
      (SessionLoop.start conf {s with device := device, si := some port.toSerialInfo}) turns
    if t.running then none
    else
      let s := t.gateway.session
      some (0,{s with device := serialCleanup port oldSetting newSetting s.device, si := none})

theorem getSetting_keeps {device : SerialDevice} (succeeds : device.Succeeds)
    (reading : Termios → Nat) (fallback : Nat) :
    (device.getSetting reading fallback).2.Succeeds := by
  rw [SerialDevice.getSetting_succeeds succeeds]
  exact succeeds.later device.term

theorem setSetting_keeps {device : SerialDevice} (succeeds : device.Succeeds)
    (change : Termios → Termios) : (device.setSetting change).2.Succeeds := by
  rw [SerialDevice.setSetting_succeeds succeeds]
  exact (succeeds.later device.term).later _

theorem respondSetting_keeps {s : Session} (succeeds : s.device.Succeeds) (request : Nat)
    {get : SerialDevice → Nat × SerialDevice} {set : Nat → SerialDevice → Int × SerialDevice}
    (reads : ∀ device : SerialDevice, device.Succeeds → (get device).2.Succeeds)
    (writes : ∀ value (device : SerialDevice), device.Succeeds → (set value device).2.Succeeds)
    (reply : UInt8) (width value : Nat) :
    (respondSetting request get set reply width value s).2.device.Succeeds := by
  have sent (content : List UInt8) (device : SerialDevice) (succeeds : device.Succeeds) :
      (sendTelnetCpcSuboption reply content {s with device := device}).2.device.Succeeds := by
    rw [(sendTelnetCpcSuboption_transmits reply content _).device]
    exact succeeds
  unfold respondSetting
  dsimp only
  split
  · exact sent _ _ (reads _ succeeds)
  · exact sent _ _ (reads _ (writes value _ succeeds))

theorem respondTelnetCpcSignatureSubopt_device (s : Session) :
    (respondTelnetCpcSignatureSubopt s).2.device = s.device := by
  have sent (suboptcode : UInt8) (content : List UInt8) (t : Session) :=
    (sendTelnetCpcSuboption_transmits suboptcode content t).device
  unfold respondTelnetCpcSignatureSubopt
  dsimp only
  split
  · generalize (if s.allocs.headD true then signature s else plainSignature) = content
    split
    · dsimp only
      rw [sent,sent]
    · rw [sent]
  · rfl

theorem dispatchSuboption_keeps {s : Session} (succeeds : s.device.Succeeds) (suboptcode : UInt8)
    (value : Nat) : (dispatchSuboption suboptcode value s).2.device.Succeeds := by
  have setting (request : Nat) (reading : Termios → Nat) (fallback : Nat)
      (change : Nat → Termios → Termios) (reply : UInt8) (width : Nat) :=
    respondSetting_keeps succeeds request (fun _ succeeds => getSetting_keeps succeeds reading fallback)
      (fun value _ succeeds => setSetting_keeps succeeds (change value)) reply width value
  unfold dispatchSuboption
  split
  · rw [respondTelnetCpcSignatureSubopt_device]
    exact succeeds
  · split
    · exact setting 0 Termios.baudrate _ Termios.withBaudrate _ _
    · split
      · exact setting _ Termios.datasize _ Termios.withDatasize _ _
      · split
        · exact setting _ Termios.parity _ Termios.withParity _ _
        · split
          · exact setting _ Termios.stopsize _ Termios.withStopsize _ _
          · exact succeeds

theorem processTelnetCpcSuboption_keeps {s : Session} (succeeds : s.device.Succeeds)
    (mem : Block UInt8) (optstr optlen : Int) :
    (processTelnetCpcSuboption mem optstr optlen s).2.device.Succeeds := by
  rcases processTelnetCpcSuboption_cases mem optstr optlen s with same | ⟨command,suboptcode,text,same⟩
  · rw [same]
    exact succeeds
  · rw [same]
    apply dispatchSuboption_keeps
    exact succeeds

theorem clientStep_keeps {g : Gateway} (succeeds : g.session.device.Succeeds)
    (event : ClientEvent) : (clientStep g event).session.device.Succeeds := by
  cases event with
  | readable reply answer =>
    apply socketToSerial_session (fun s => s.device.Succeeds) _ _ reply answer succeeds
    · intro optcode option s succeeds
      rw [(respondTelnetOption_uncontrolled optcode option s).device]
      exact succeeds
    · intro mem start size s succeeds
      exact processTelnetCpcSuboption_keeps succeeds mem start size
  | idle =>
    change (terminateIdle g.session).device.Succeeds
    rw [(terminateIdle_uncontrolled g.session).device]
    exact succeeds

theorem sessionStart_device (s : Session) : (sessionStart s).device = s.device := by
  apply telnetInit_keeps (fun t => t.device = s.device)
  · intro optcode option t same
    exact (sendTelnetOption_uncontrolled optcode option t).device.trans same
  · rfl

theorem step_device {conf : SessionConf} (raw : conf.rawFlag = true) {device : SerialDevice}
    (t : SessionLoop) (turn : Turn) (same : t.gateway.session.device = device) :
    (t.step conf turn).gateway.session.device = device := by
  apply SessionLoop.step_keeps (fun t => t.gateway.session.device = device) _ t turn same
  intro t turn running same
  apply SessionLoop.turn_keeps (fun t => t.gateway.session.device = device) _ _ _ _ same
    (SessionLoop.running_error running)
  · intro t same
    have told := ((appendToSabre_uncontrolled idleText t.gateway.session).trans
      (writeSabre_uncontrolled _)).device.trans same
    unfold SessionLoop.checkIdle
    rw [raw]
    split
    · exact told
    · exact same
  · intro t n same
    exact same
  · intro t same _
    unfold SessionLoop.fromSocket
    rw [raw]
    exact same
  · intro t same _
    rw [SessionLoop.fromSerial_gateway]
    exact same

/-- No session makes a terminal call fail. -/
theorem session_keeps (conf : SessionConf) (turns : List Turn) {s : Session}
    (succeeds : s.device.Succeeds) :
    (Machine.run (SessionLoop.step conf) (SessionLoop.start conf s)
      turns).gateway.session.device.Succeeds := by
  cases mode : conf.rawFlag with
  | true =>
    have begun : (SessionLoop.start conf s).gateway.session.device = s.device := by
      unfold SessionLoop.start
      rw [mode]
      rfl
    rw [Machine.invariant_run (fun t : SessionLoop => t.gateway.session.device = s.device)
      (step_device mode) begun turns]
    exact succeeds
  | false =>
    have begun : (SessionLoop.start conf s).gateway.session.device.Succeeds := by
      unfold SessionLoop.start
      rw [mode]
      exact (sessionStart_device s).symm ▸ succeeds
    obtain ⟨events,same⟩ := SessionLoop.run_gateway mode (SessionLoop.start conf s) turns
    rw [same]
    exact Machine.invariant_run (fun g : Gateway => g.session.device.Succeeds)
      (fun g event succeeds => clientStep_keeps succeeds event) begun events

theorem serialInitTermios_succeeds {device : SerialDevice} (succeeds : device.Succeeds)
    (port : SerialPort) (oldSetting newSetting : Termios) :
    (serialInitTermios port oldSetting newSetting device).1 = 0 ∧
      (serialInitTermios port oldSetting newSetting device).2.Succeeds := by
  have once := succeeds.later device.term
  have twice := once.later device.term
  unfold serialInitTermios
  rw [SerialDevice.tcgetattr_succeeds succeeds]
  dsimp only
  rw [SerialDevice.tcgetattr_succeeds once]
  dsimp only
  rw [SerialDevice.tcsetattr_succeeds twice]
  exact ⟨rfl,twice.later _⟩

theorem serialPortInit_succeeds {device : SerialDevice} (succeeds : device.Succeeds)
    (port : SerialPort) (oldSetting newSetting : Termios) : ∃ next : SerialDevice, next.Succeeds ∧
      serialPortInit (some port) oldSetting newSetting device = (some port,next) := by
  obtain ⟨fine,ready⟩ := serialInitTermios_succeeds succeeds port oldSetting newSetting
  unfold serialPortInit
  dsimp only
  rw [fine,if_neg (not_not.mpr rfl)]
  split
  · exact ⟨_,ready.later _,rfl⟩
  · exact ⟨_,ready,rfl⟩

/-- The last call of serial_cleanup decides. -/
theorem serialCleanup_term {device : SerialDevice} (succeeds : device.Succeeds) (port : SerialPort)
    (oldSetting newSetting : Termios) :
    (serialCleanup port oldSetting newSetting device).term = oldSetting := by
  have set {device : SerialDevice} (succeeds : device.Succeeds) (term : Termios) :
      (device.tcsetattr term).2.Succeeds ∧ (device.tcsetattr term).2.term = term := by
    rw [SerialDevice.tcsetattr_succeeds succeeds]
    exact ⟨succeeds.later term,rfl⟩
  unfold serialCleanup
  dsimp only
  have hung := (set succeeds (newSetting.cfsetospeed B0)).1
  have back := (set hung ((newSetting.cfsetospeed B0).cfsetospeed newSetting.cfgetospeed)).1
  split
  · exact (set (back.later _) oldSetting).2
  · exact (set back oldSetting).2

/-- What the device is left with: the settings that were on the stack. -/
theorem parentAcceptSocketConnection_term {conf : SessionConf} {turns : List Turn}
    {selected : Option SerialPort} {oldSetting newSetting : Termios} {s : Session}
    (succeeds : s.device.Succeeds) {result : Int × Session}
    (returned : parentAcceptSocketConnection conf turns selected oldSetting newSetting s =
      some result) :
    result.2.device.term = if selected = none then s.device.term else oldSetting := by
  cases selected with
  | none =>
    cases returned
    rfl
  | some port =>
    obtain ⟨device,ready,opened⟩ := serialPortInit_succeeds succeeds port oldSetting newSetting
    rw [if_neg (Option.some_ne_none port)]
    unfold parentAcceptSocketConnection at returned
    rw [opened] at returned
    dsimp only at returned
    split at returned
    · contradiction
    · cases returned
      have kept := session_keeps conf turns
        (show Session.device {s with device := device, si := some port.toSerialInfo} |>.Succeeds from ready)
      exact serialCleanup_term kept port oldSetting newSetting

/-- If all terminal calls succeed, the line is given back as it was found exactly when
no port was opened, or the local that was to save its settings held them by chance. -/
theorem line_restored_iff (conf : SessionConf) (turns : List Turn) (selected : Option SerialPort)
    (oldSetting newSetting : Termios) (s : Session) (succeeds : s.device.Succeeds)
    (result : Int × Session) (returned : parentAcceptSocketConnection conf turns selected oldSetting
      newSetting s = some result) :
    result.2.device.term = s.device.term ↔ selected = none ∨ oldSetting = s.device.term := by
  rw [parentAcceptSocketConnection_term succeeds returned]
  split
  · rename_i closed
    exact iff_of_true rfl (Or.inl closed)
  · rename_i opened
    exact (or_iff_right opened).symm

set_option maxRecDepth 10000 in
/-- The client hangs up at once, and the local happens to hold the settings. -/
theorem line_restored_iff_hangup : let stack : Block UInt8 := ⟨fun _ => 0,[]⟩
    let hangup : Turn :=
      ⟨.ready [.sockfd],0,.bytes [],.all,.interrupted,.all,⟨stack,stack⟩,⟨stack,stack,0⟩⟩
    let port : SerialPort := ⟨⟨none,none⟩,9600,8,PARITY_NONE,SOFTWARE_FLOW,true,true⟩
    ∃ result, parentAcceptSocketConnection ⟨0,false,false⟩ [hangup] (some port) ⟨0,0,0xBD,0⟩
        ⟨0,0,0,0⟩ (processStart ⟨⟨0,0,0xBD,0⟩,[]⟩) = some result ∧
      result.2.device.term = ⟨0,0,0xBD,0⟩ := by
  intro stack hangup port
  obtain ⟨result,returned⟩ := Option.isSome_iff_exists.mp (show (parentAcceptSocketConnection
    ⟨0,false,false⟩ [hangup] (some port) ⟨0,0,0xBD,0⟩ ⟨0,0,0,0⟩
      (processStart ⟨⟨0,0,0xBD,0⟩,[]⟩)).isSome from by decide +kernel)
  refine ⟨result,returned,(line_restored_iff ⟨0,false,false⟩ [hangup] (some port) ⟨0,0,0xBD,0⟩
    ⟨0,0,0,0⟩ (processStart ⟨⟨0,0,0xBD,0⟩,[]⟩) ?_ result returned).mpr (Or.inr rfl)⟩
  exact fun _ member => absurd member List.not_mem_nil

set_option maxRecDepth 10000 in
/-- The same connection on a stack of zeros. -/
theorem line_not_restored : ¬∀ (conf : SessionConf) (turns : List Turn)
    (selected : Option SerialPort) (oldSetting newSetting : Termios) (s : Session),
    s.device.Succeeds → ∀ result,
      parentAcceptSocketConnection conf turns selected oldSetting newSetting s = some result →
      result.2.device.term = s.device.term := by
  intro always
  let stack : Block UInt8 := ⟨fun _ => 0,[]⟩
  let hangup : Turn :=
    ⟨.ready [.sockfd],0,.bytes [],.all,.interrupted,.all,⟨stack,stack⟩,⟨stack,stack,0⟩⟩
  let port : SerialPort := ⟨⟨none,none⟩,9600,8,PARITY_NONE,SOFTWARE_FLOW,true,true⟩
  have succeeds : (processStart ⟨⟨0,0,0xBD,0⟩,[]⟩).device.Succeeds :=
    fun _ member => absurd member List.not_mem_nil
  obtain ⟨result,returned⟩ := Option.isSome_iff_exists.mp (show (parentAcceptSocketConnection
    ⟨0,false,false⟩ [hangup] (some port) ⟨0,0,0,0⟩ ⟨0,0,0,0⟩
      (processStart ⟨⟨0,0,0xBD,0⟩,[]⟩)).isSome from by decide +kernel)
  have restored := always _ _ _ _ _ _ succeeds result returned
  rw [parentAcceptSocketConnection_term succeeds returned,if_neg (Option.some_ne_none port)] at restored
  have flags := congrArg Termios.cflag restored
  exact absurd flags (by decide)

end SerialIp
