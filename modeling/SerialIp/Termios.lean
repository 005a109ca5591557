import Mathlib.Data.List.Basic
import SerialIp.TelnetCodes

/-! The terminal settings of the serial device and the four of them that a
client may read and change (serial_handle.c, with the speed tables of
utilities.c and the flag words of asm-generic/termbits.h). -/
namespace SerialIp

abbrev CBAUD : BitVec 32 := 0x100F
abbrev CSIZE : BitVec 32 := 0x30
abbrev CS5 : BitVec 32 := 0x00
abbrev CS6 : BitVec 32 := 0x10
abbrev CS7 : BitVec 32 := 0x20
abbrev CS8 : BitVec 32 := 0x30
abbrev CSTOPB : BitVec 32 := 0x40
abbrev PARENB : BitVec 32 := 0x100
abbrev PARODD : BitVec 32 := 0x200

structure Termios where
  iflag : BitVec 32
  oflag : BitVec 32
  cflag : BitVec 32
  lflag : BitVec 32

/-- The speeds both conversions know, each with its code in the flag word. -/
def speeds : List (Nat × BitVec 32) :=
  [(0,0),(50,1),(75,2),(110,3),(134,4),(150,5),(200,6),(300,7),(600,8),(1200,9),(1800,10),
    (2400,11),(4800,12),(9600,13),(19200,14),(38400,15),(57600,0x1001),(115200,0x1002),
    (230400,0x1003),(460800,0x1004)]

def speedT2ulong (s : BitVec 32) : Nat :=
  ((speeds.find? fun entry => entry.2 = s).map (·.1)).getD 9600

def ulong2speedT (s : Nat) : BitVec 32 :=
  ((speeds.find? fun entry => entry.1 = s).map (·.2)).getD 13

namespace Termios

def cfgetospeed (term : Termios) : BitVec 32 := term.cflag &&& CBAUD

def cfsetospeed (term : Termios) (speed : BitVec 32) : Termios :=
  {term with cflag := (term.cflag &&& ~~~CBAUD) ||| speed}

def baudrate (term : Termios) : Nat := speedT2ulong term.cfgetospeed

def datasize (term : Termios) : Nat :=
  let cs := term.cflag &&& CSIZE
  if cs = CS8 then CPC_DATASIZE_CS8
  else if cs = CS7 then CPC_DATASIZE_CS7
  else if cs = CS6 then CPC_DATASIZE_CS6
  else if cs = CS5 then CPC_DATASIZE_CS5
  else CPC_DATASIZE_CS8

def parity (term : Termios) : Nat :=
  if term.cflag &&& PARENB ≠ 0 then
    if term.cflag &&& PARODD ≠ 0 then CPC_PARITY_ODD else CPC_PARITY_EVEN
  else CPC_PARITY_NONE

def stopsize (term : Termios) : Nat :=
  if term.cflag &&& CSTOPB ≠ 0 then CPC_STOPSIZE_2BITS else CPC_STOPSIZE_1BIT

def withBaudrate (value : Nat) (term : Termios) : Termios :=
  term.cfsetospeed (ulong2speedT value)

def withDatasize (value : Nat) (term : Termios) : Termios :=
  let cleared := term.cflag &&& ~~~CSIZE
  let cflag :=
    if value = CPC_DATASIZE_CS8 then cleared ||| CS8
    else if value = CPC_DATASIZE_CS7 then cleared ||| CS7
    else if value = CPC_DATASIZE_CS6 then cleared ||| CS6
    else if value = CPC_DATASIZE_CS5 then cleared ||| CS5
    else cleared ||| CS8
  {term with cflag := cflag}

/-- Every branch but mark and space also clears the stop bit flag. -/
def withParity (value : Nat) (term : Termios) : Termios :=
  if value = CPC_PARITY_ODD then
    {term with cflag := (term.cflag ||| PARENB ||| PARODD) &&& ~~~CSTOPB}
  else if value = CPC_PARITY_EVEN then
    {term with cflag := (term.cflag ||| PARENB) &&& ~~~PARODD &&& ~~~CSTOPB}
  else if value = CPC_PARITY_MARK ∨ value = CPC_PARITY_SPACE then term
  else {term with cflag := term.cflag &&& ~~~PARENB &&& ~~~CSTOPB}

/-- The two-bit request keeps nothing but the stop bit flag; the request for
1.5 bits leaves the switch before its announced fall-through. -/
def withStopsize (value : Nat) (term : Termios) : Termios :=
  if value = CPC_STOPSIZE_2BITS then {term with cflag := term.cflag &&& CSTOPB}
  else if value = CPC_STOPSIZE_15BITS then term
  else {term with cflag := term.cflag &&& ~~~CSTOPB}

end Termios

/-- The open serial device; `outcomes` are the answers to come of its terminal
calls, which succeed once the list is used up. -/
structure SerialDevice where
  term : Termios
  outcomes : List Bool

namespace SerialDevice

def tcgetattr (device : SerialDevice) : Option Termios × SerialDevice :=
  let next := {device with outcomes := device.outcomes.tail}
  if device.outcomes.headD true then (some device.term,next) else (none,next)

def tcsetattr (term : Termios) (device : SerialDevice) : Int × SerialDevice :=
  let next := {device with outcomes := device.outcomes.tail}
  if device.outcomes.headD true then (0,{next with term := term}) else (-1,next)

def getSetting (reading : Termios → Nat) (fallback : Nat) (device : SerialDevice) :
    Nat × SerialDevice :=
  match device.tcgetattr with
  | (some term,device) => (reading term,device)
  | (none,device) => (fallback,device)

def setSetting (change : Termios → Termios) (device : SerialDevice) : Int × SerialDevice :=
  match device.tcgetattr with
  | (some term,device) => device.tcsetattr (change term)
  | (none,device) => (-1,device)

def getStopsize : SerialDevice → Nat × SerialDevice :=
  getSetting Termios.stopsize CPC_STOPSIZE_1BIT

def setStopsize (value : Nat) : SerialDevice → Int × SerialDevice :=
  setSetting (Termios.withStopsize value)

def getParity : SerialDevice → Nat × SerialDevice :=
  getSetting Termios.parity CPC_PARITY_NONE

def setParity (value : Nat) : SerialDevice → Int × SerialDevice :=
  setSetting (Termios.withParity value)

def getDatasize : SerialDevice → Nat × SerialDevice :=
  getSetting Termios.datasize CPC_DATASIZE_CS8

def setDatasize (value : Nat) : SerialDevice → Int × SerialDevice :=
  setSetting (Termios.withDatasize value)

def getBaudrate : SerialDevice → Nat × SerialDevice :=
  getSetting Termios.baudrate 9600

def setBaudrate (value : Nat) : SerialDevice → Int × SerialDevice :=
  setSetting (Termios.withBaudrate value)

end SerialDevice
end SerialIp
