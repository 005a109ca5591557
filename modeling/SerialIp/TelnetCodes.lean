import Mathlib.Data.UInt

/-! The telnet bytes of arpa/telnet.h and the Com Port Control codes of
serial_ip.h. -/
namespace SerialIp

def ascii (text : String) : List UInt8 := text.toList.map fun c => UInt8.ofNat c.toNat

abbrev IAC : UInt8 := 255
abbrev DONT : UInt8 := 254
abbrev DO : UInt8 := 253
abbrev WONT : UInt8 := 252
abbrev WILL : UInt8 := 251
abbrev SB : UInt8 := 250
abbrev SE : UInt8 := 240

abbrev TELOPT_BINARY : UInt8 := 0
abbrev TELOPT_ECHO : UInt8 := 1
abbrev TELOPT_SGA : UInt8 := 3
abbrev TELOPT_LOGOUT : UInt8 := 18
abbrev TELOPT_COM_PORT_OPTION : UInt8 := 44

abbrev CPC_SIGNATURE_C2S : UInt8 := 0
abbrev CPC_SET_BAUDRATE_C2S : UInt8 := 1
abbrev CPC_SET_DATASIZE_C2S : UInt8 := 2
abbrev CPC_SET_PARITY_C2S : UInt8 := 3
abbrev CPC_SET_STOPSIZE_C2S : UInt8 := 4
abbrev CPC_SIGNATURE_S2C : UInt8 := 100
abbrev CPC_SET_BAUDRATE_S2C : UInt8 := 101
abbrev CPC_SET_DATASIZE_S2C : UInt8 := 102
abbrev CPC_SET_PARITY_S2C : UInt8 := 103
abbrev CPC_SET_STOPSIZE_S2C : UInt8 := 104

abbrev CPC_DATASIZE_REQUEST : Nat := 0
abbrev CPC_DATASIZE_CS5 : Nat := 5
abbrev CPC_DATASIZE_CS6 : Nat := 6
abbrev CPC_DATASIZE_CS7 : Nat := 7
abbrev CPC_DATASIZE_CS8 : Nat := 8
abbrev CPC_PARITY_REQUEST : Nat := 0
abbrev CPC_PARITY_NONE : Nat := 1
abbrev CPC_PARITY_ODD : Nat := 2
abbrev CPC_PARITY_EVEN : Nat := 3
abbrev CPC_PARITY_MARK : Nat := 4
abbrev CPC_PARITY_SPACE : Nat := 5
abbrev CPC_STOPSIZE_REQUEST : Nat := 0
abbrev CPC_STOPSIZE_1BIT : Nat := 1
abbrev CPC_STOPSIZE_2BITS : Nat := 2
abbrev CPC_STOPSIZE_15BITS : Nat := 3

/-- The four negotiation commands, which share one answer discipline. -/
inductive OptCode
  | WILL
  | WONT
  | DO
  | DONT
  deriving DecidableEq

def OptCode.byte : OptCode → UInt8
  | .WILL => SerialIp.WILL
  | .WONT => SerialIp.WONT
  | .DO => SerialIp.DO
  | .DONT => SerialIp.DONT

def OptCode.ofByte? (byte : UInt8) : Option OptCode :=
  if byte = SerialIp.WILL then some .WILL
  else if byte = SerialIp.DO then some .DO
  else if byte = SerialIp.DONT then some .DONT
  else if byte = SerialIp.WONT then some .WONT
  else none

@[simp] theorem OptCode.ofByte?_byte (optcode : OptCode) : ofByte? optcode.byte = some optcode := by
  cases optcode <;> rfl

/-- `session_state`; nothing in the compiled code ever suspends a session. -/
inductive SessionState
  | SUSPEND
  | RESUME
  deriving DecidableEq

end SerialIp
