import Mathlib.Logic.Function.Basic
import SerialIp.Buffer
import SerialIp.Termios

/-! The telnet side of a session in telnet mode: its global state, the option
table and the negotiation of telnet options (telnet.c). -/
namespace SerialIp
open Library

/-- `TELNET_OPTIONS`: what was sent for an option and what is agreed on. -/
structure TelnetOptions where
  sentWill : Bool
  sentDo : Bool
  sentWont : Bool
  sentDont : Bool
  server : Bool
  client : Bool
  deriving DecidableEq

inductive Side
  | CLIENT
  | SERVER
  deriving DecidableEq

inductive TnMode
  | ASCII
  | BINARY
  deriving DecidableEq

structure SerialInfo where
  device : Option (List UInt8)
  description : Option (List UInt8)

inductive Notice
  | received (optcode : OptCode) (option : UInt8)
  | suboption (suboptcode : UInt8) (value : Nat) (command : List UInt8)
  | clientSignature (text : List UInt8)
  deriving DecidableEq

/-- The globals of telnet.c, the static blocks of its functions, the buffer
towards the client and the world around them: `replies` answers the write()
calls to come on the socket and `allocs` the malloc calls (both succeed in full
once the list is used up), `wire` holds what each write() took. -/
structure Session where
  tnoptions : UInt8 → TelnetOptions
  tnmode : Side → TnMode
  sessionState : SessionState
  askClientSignature : Bool
  clientLoggedIn : Bool
  programName : List UInt8
  version : List UInt8
  si : Option SerialInfo
  device : SerialDevice
  sabre : Buffer
  optstr : Block UInt8
  command : Block UInt8
  replies : List WriteReply
  allocs : List Bool
  wire : List (List UInt8)
  notices : List Notice

namespace Session

def notice (entry : Notice) (s : Session) : Session := {s with notices := s.notices ++ [entry]}

def setOption (option : UInt8) (change : TelnetOptions → TelnetOptions) (s : Session) : Session :=
  {s with tnoptions := Function.update s.tnoptions option (change (s.tnoptions option))}

def setTnmode (side : Side) (mode : TnMode) (s : Session) : Session :=
  {s with tnmode := Function.update s.tnmode side mode}

def appendToSabre (bytes : List UInt8) (s : Session) : Session :=
  {s with sabre := (s.sabre.bfstrncat bytes bytes.length).2}

/-- write_from_buffer_to_fd on the socket; only a call of write() uses up an
answer. -/
def writeSabre (s : Session) : Int × Session :=
  let result := s.sabre.writeFromBufferToFd (s.replies.headD .all)
  if s.sabre.calNumbytesToWrite ≤ 0 then (result.ret,s)
  else (result.ret,{s with sabre := result.buff, replies := s.replies.tail,
                           wire := s.wire ++ [result.moved]})

end Session

open Session

def enableTelnetClientOption (option : UInt8) (s : Session) : Session :=
  s.setOption option fun entry => {entry with client := true}

def disableTelnetClientOption (option : UInt8) (s : Session) : Session :=
  s.setOption option fun entry => {entry with client := false}

def telnetClientOptionIsEnabled (option : UInt8) (s : Session) : Bool := (s.tnoptions option).client

def telnetClientOptionIsDisabled (option : UInt8) (s : Session) : Bool :=
  !telnetClientOptionIsEnabled option s

def enableTelnetServerOption (option : UInt8) (s : Session) : Session :=
  s.setOption option fun entry => {entry with server := true}

def disableTelnetServerOption (option : UInt8) (s : Session) : Session :=
  s.setOption option fun entry => {entry with server := false}

def telnetServerOptionIsEnabled (option : UInt8) (s : Session) : Bool := (s.tnoptions option).server

def telnetServerOptionIsDisabled (option : UInt8) (s : Session) : Bool :=
  !telnetServerOptionIsEnabled option s

def markTelnetOptionAsSent (optcode : OptCode) (option : UInt8) (s : Session) : Session :=
  match optcode with
  | .WILL => s.setOption option fun entry => {entry with sentWill := true}
  | .DO => s.setOption option fun entry => {entry with sentDo := true}
  | .WONT => s.setOption option fun entry => {entry with sentWont := true}
  | .DONT => s.setOption option fun entry => {entry with sentDont := true}

def telnetOptionWasSent (optcode : OptCode) (option : UInt8) (s : Session) : Bool :=
  match optcode with
  | .WILL => (s.tnoptions option).sentWill
  | .DO => (s.tnoptions option).sentDo
  | .WONT => (s.tnoptions option).sentWont
  | .DONT => (s.tnoptions option).sentDont

def optstr (optcode : OptCode) (option : UInt8) : List UInt8 := [IAC,optcode.byte,option]

def sendTelnetOption (optcode : OptCode) (option : UInt8) (s : Session) : Int × Session :=
  if telnetOptionWasSent optcode option s then (0,s)
  else
    let s := s.appendToSabre (optstr optcode option)
    if s.sessionState = .RESUME then
      let (ret,s) := s.writeSabre
      if ret ≥ 3 then (0,markTelnetOptionAsSent optcode option s) else (1,s)
    else (0,s)

/-- The same body as `sendTelnetOption` but for the texts of its log. -/
def sendInitTelnetOption (optcode : OptCode) (option : UInt8) (s : Session) : Int × Session :=
  sendTelnetOption optcode option s

/-- The switch that respond_known_telnet_option and respond_telnet_binary_option
share; `setMode` is what they do to `tnmode`. -/
def answerTelnetOption (setMode : Side → TnMode → Session → Session) (optcode : OptCode)
    (option : UInt8) (s : Session) : Int × Session :=
  match optcode with
  | .WILL =>
    if telnetClientOptionIsDisabled option s then
      let (ret,s) := sendTelnetOption .DO option s
      (ret,setMode .CLIENT .BINARY (enableTelnetClientOption option s))
    else (0,s)
  | .WONT =>
    if telnetClientOptionIsEnabled option s then
      let (ret,s) := sendTelnetOption .DONT option s
      (ret,setMode .CLIENT .ASCII (disableTelnetClientOption option s))
    else (0,s)
  | .DO =>
    if telnetServerOptionIsDisabled option s then
      let (ret,s) := sendTelnetOption .WILL option s
      (ret,setMode .SERVER .BINARY (enableTelnetServerOption option s))
    else (0,s)
  | .DONT =>
    if telnetServerOptionIsEnabled option s then
      let (ret,s) := sendTelnetOption .WONT option s
      (ret,setMode .SERVER .ASCII (disableTelnetServerOption option s))
    else (0,s)

def answerKnown : OptCode → UInt8 → Session → Int × Session := answerTelnetOption fun _ _ s => s

def answerBinary : OptCode → UInt8 → Session → Int × Session := answerTelnetOption setTnmode

/-- Called with another option it hands over to its sibling, and that one back
to the switch of its own. -/
def respondTelnetBinaryOption (optcode : OptCode) (option : UInt8) (s : Session) : Int × Session :=
  if option ≠ TELOPT_BINARY then answerKnown optcode option s else answerBinary optcode option s

def respondKnownTelnetOption (optcode : OptCode) (option : UInt8) (s : Session) : Int × Session :=
  if option = TELOPT_BINARY then answerBinary optcode option s else answerKnown optcode option s

def negativeAnswer : OptCode → OptCode
  | .WILL | .WONT => .DONT
  | .DO | .DONT => .WONT

def respondTelnetOption (optcode : OptCode) (option : UInt8) (s : Session) : Int × Session :=
  let s := s.notice (.received optcode option)
  if option = TELOPT_COM_PORT_OPTION ∨ option = TELOPT_ECHO ∨ option = TELOPT_SGA then
    respondKnownTelnetOption optcode option s
  else if option = TELOPT_LOGOUT then
    let (ret,s) := respondKnownTelnetOption optcode option s
    (ret,if optcode = .WILL ∨ optcode = .DO then {s with clientLoggedIn := false} else s)
  else if option = TELOPT_BINARY then respondTelnetBinaryOption optcode option s
  else sendTelnetOption (negativeAnswer optcode) option s

def initialOffers : List (OptCode × UInt8) :=
  [(.DO,TELOPT_COM_PORT_OPTION),(.WILL,TELOPT_BINARY),(.DO,TELOPT_BINARY),(.WILL,TELOPT_ECHO),
    (.WILL,TELOPT_SGA),(.DO,TELOPT_SGA)]

def resetGlobals (s : Session) : Session :=
  {s with tnoptions := fun _ => ⟨false,false,false,false,false,false⟩,
          tnmode := fun _ => .ASCII, sessionState := .RESUME, askClientSignature := true}

def telnetInit (s : Session) : Session :=
  initialOffers.foldl (fun s offer => (sendInitTelnetOption offer.1 offer.2 s).2) (resetGlobals s)

/-- The globals as the program starts with them, on a given serial device. -/
def processStart (device : SerialDevice) : Session where
  tnoptions := fun _ => ⟨false,false,false,false,false,false⟩
  tnmode := fun _ => .ASCII
  sessionState := .RESUME
  askClientSignature := true
  clientLoggedIn := false
  programName := ascii "serial_ip"
  version := ascii "Sabre Serial-IP v1.1 11.08.2015 ToMinhTien"
  si := none
  device := device
  sabre := Buffer.bfmalloc SIZE_BUFFER
  optstr := ⟨fun _ => 0,[]⟩
  command := ⟨fun _ => 0,[]⟩
  replies := []
  allocs := []
  wire := []
  notices := []

/-- How serial_ip_communication_process enters its loop in telnet mode. -/
def sessionStart (s : Session) : Session :=
  {telnetInit {s with sabre := Buffer.bfmalloc SIZE_BUFFER} with clientLoggedIn := true}

end SerialIp
