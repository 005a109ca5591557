import Mathlib.Data.List.DropRight
import SerialIp.Buffer
import SerialIp.TelnetCodes

/-! One line of the configuration file: the C library and utilities.c on strings and
numbers, and parse_entry with the keyword table of serial_ip.h. A C string is the
bytes before its NUL. -/
namespace SerialIp

def isspace (c : UInt8) : Bool := c = 32 || (9 ≤ c && c ≤ 13)

def tolower (c : UInt8) : UInt8 := if 65 ≤ c && c ≤ 90 then c + 32 else c

def isdigit (c : UInt8) : Bool := 48 ≤ c && c ≤ 57

def LONG_MAX : Int := 2 ^ 63 - 1
def LONG_MIN : Int := -2 ^ 63

def decimalDigits (s : List UInt8) : Int :=
  (s.takeWhile isdigit).foldl (fun n c => 10 * n + (c.toNat - 48 : Int)) 0

/-- `strtol` in base 10; a number out of range is cut to the nearest `long`. -/
def strtol (s : List UInt8) : Int :=
  match s.dropWhile isspace with
  | 45::digits => max LONG_MIN (-decimalDigits digits)
  | 43::digits => min LONG_MAX (decimalDigits digits)
  | digits => min LONG_MAX (decimalDigits digits)

def atol (s : List UInt8) : Int := strtol s

def atoi (s : List UInt8) : Int := (strtol s).bmod (2 ^ 32)

/-- `strcasecmp(a, b) == 0`. -/
def strcaseeq (a b : List UInt8) : Bool := a.map tolower = b.map tolower

def removeFeedlineFromString (str : List UInt8) : List UInt8 := str.takeWhile (· ≠ 10)

def removeCarriageReturnFromString (str : List UInt8) : List UInt8 := str.takeWhile (· ≠ 13)

def skipWhiteSpace (str : List UInt8) : List UInt8 := str.dropWhile isspace

def retrieveConfigurationEntryName (s : List UInt8) : List UInt8 := s.rdropWhile isspace

def stringToLower (str : List UInt8) : List UInt8 := str.map tolower

def validSerialSpeed (speed : Nat) : Bool :=
  speed ∈ [0,50,75,110,134,150,200,300,600,1200,2400,4800,9600,19200,38400,57600,115200,230400,460800]

/-- The token types of the table; no keyword is a `PRINTFSTRING`. -/
inductive ValueType
  | LONGVALUE
  | BOOLEAN
  | STRING
  | VALUE
  deriving DecidableEq

inductive Token
  | UNKNOWN
  | INVALID
  | COMMENT
  | BLANKLINE
  | DEBUGLOG
  | DEBUGLEVEL
  | DIRECTORY
  | TMPDIR
  | PIDFILE
  | TIMEOUT
  | SERVERTYPE
  | USERNAME
  | GROUP
  | LOCKDIR
  | LOCKTEMPLATE
  | DEVICE
  | SPEED
  | DATABITS
  | PARITY
  | STOPBITS
  | FLOWCONTROL
  | MS_POLLINTERVAL
  | LS_POLLINTERVAL
  | DESCRIPTION
  | REPLYPURGEDATA
  | CONNFLUSH
  | DISCFLUSH
  | IDLETIMER
  | SENDLOGOUT
  deriving DecidableEq

structure Keyword where
  name : List UInt8
  token : Token
  type : ValueType

def SIZE_KEYWORD : Nat := 64

def keywordTable : List Keyword := [
  ⟨ascii "description",.DESCRIPTION,.STRING⟩,
  ⟨ascii "serial device",.DEVICE,.STRING⟩,
  ⟨ascii "speed",.SPEED,.LONGVALUE⟩,
  ⟨ascii "databits",.DATABITS,.VALUE⟩,
  ⟨ascii "parity",.PARITY,.STRING⟩,
  ⟨ascii "stopbits",.STOPBITS,.VALUE⟩,
  ⟨ascii "flow control",.FLOWCONTROL,.STRING⟩,
  ⟨ascii "flush on connect",.CONNFLUSH,.BOOLEAN⟩,
  ⟨ascii "flush on disconnect",.DISCFLUSH,.BOOLEAN⟩,
  ⟨ascii "directory",.DIRECTORY,.STRING⟩,
  ⟨ascii "tmp directory",.TMPDIR,.STRING⟩,
  ⟨ascii "pid file",.PIDFILE,.STRING⟩,
  ⟨ascii "server type",.SERVERTYPE,.STRING⟩,
  ⟨ascii "timeout",.TIMEOUT,.VALUE⟩,
  ⟨ascii "reply Purge Data",.REPLYPURGEDATA,.BOOLEAN⟩,
  ⟨ascii "user",.USERNAME,.STRING⟩,
  ⟨ascii "group",.GROUP,.STRING⟩,
  ⟨ascii "modemstate poll interval",.MS_POLLINTERVAL,.VALUE⟩,
  ⟨ascii "linestate poll interval",.LS_POLLINTERVAL,.VALUE⟩,
  ⟨ascii "debug log",.DEBUGLOG,.STRING⟩,
  ⟨ascii "debug level",.DEBUGLEVEL,.VALUE⟩,
  ⟨ascii "lock directory",.LOCKDIR,.STRING⟩,
  ⟨ascii "lock template",.LOCKTEMPLATE,.STRING⟩,
  ⟨ascii "idle timer",.IDLETIMER,.VALUE⟩,
  ⟨ascii "send Telnet LOGOUT",.SENDLOGOUT,.BOOLEAN⟩,
  ⟨ascii "username",.USERNAME,.STRING⟩,
  ⟨ascii "device",.DEVICE,.STRING⟩,
  ⟨ascii "port",.DEVICE,.STRING⟩,
  ⟨ascii "speed",.SPEED,.LONGVALUE⟩,
  ⟨ascii "baudrate",.SPEED,.LONGVALUE⟩]

def Token.type : Token → ValueType
  | .SPEED => .LONGVALUE
  | .CONNFLUSH | .DISCFLUSH | .REPLYPURGEDATA | .SENDLOGOUT => .BOOLEAN
  | .DATABITS | .STOPBITS | .TIMEOUT | .DEBUGLEVEL | .MS_POLLINTERVAL | .LS_POLLINTERVAL
  | .IDLETIMER => .VALUE
  | _ => .STRING

theorem keywordTable_type : ∀ keyword ∈ keywordTable, keyword.type = keyword.token.type := by decide

/-- keyword_table_init folds the names to lower case and enters them in order, where
a name that is there already keeps its first entry. -/
def hsearch (name : List UInt8) : Option Keyword :=
  keywordTable.find? fun keyword => stringToLower keyword.name = name

/-- A name that is not in the table counts as a string. -/
def lookUp (name : List UInt8) : Token × ValueType :=
  match hsearch name with
  | some keyword => (keyword.token,keyword.type)
  | none => (.UNKNOWN,.STRING)

theorem lookUp_type (name : List UInt8) : (lookUp name).2 = (lookUp name).1.type := by
  unfold lookUp
  split
  · exact keywordTable_type _ (List.mem_of_find?_eq_some ‹_›)
  · rfl

structure ConfigEntry where
  token : Token
  type : ValueType
  value : List UInt8

/-- `parse_entry`: the token of a line that has no entry to save, or the entry. -/
def parseEntry (buffer : List UInt8) : Except Token ConfigEntry :=
  let p := skipWhiteSpace (removeCarriageReturnFromString (removeFeedlineFromString buffer))
  match p with
  | [] => .error .BLANKLINE
  | 35::_ | 59::_ => .error .COMMENT
  | _ =>
    let s := p.takeWhile (· ≠ 61)
    match p.dropWhile (· ≠ 61) with
    | [] => .error .UNKNOWN
    | _::value =>
      if s = [] then .error .UNKNOWN
      else
        let name := stringToLower (retrieveConfigurationEntryName (s.take (SIZE_KEYWORD - 1)))
        let (token,type) := lookUp name
        match retrieveConfigurationEntryName (skipWhiteSpace value) with
        | [] => .error .INVALID
        | value => .ok ⟨token,type,value⟩

theorem parseEntry_ok {buffer : List UInt8} {entry : ConfigEntry}
    (parsed : parseEntry buffer = .ok entry) :
    (∃ name, lookUp name = (entry.token,entry.type)) ∧ entry.value ≠ [] := by
  unfold parseEntry at parsed
  dsimp only at parsed
  split at parsed
  · contradiction
  · contradiction
  · contradiction
  · split at parsed
    · contradiction
    · split at parsed
      · contradiction
      · split at parsed
        · contradiction
        · rename_i blank
          obtain rfl := Except.ok.inj parsed
          exact ⟨⟨_,rfl⟩,blank⟩

/-- All keywords of a token have one type, so the case of the token knows it. -/
theorem parseEntry_type {buffer : List UInt8} {entry : ConfigEntry}
    (parsed : parseEntry buffer = .ok entry) : entry.type = entry.token.type := by
  obtain ⟨⟨name,found⟩,_⟩ := parseEntry_ok parsed
  have type := lookUp_type name
  rw [found] at type
  exact type

/-- What the calls of fgets return: lines with their newline, cut where the buffer
(with room for this many more bytes) is full, and the unfinished last one. -/
def fgetsFrom (room : Nat) (line : List UInt8) : List UInt8 → List (List UInt8)
  | [] => if line = [] then [] else [line]
  | c::file =>
    if c = 10 ∨ room ≤ 1 then (line ++ [c])::fgetsFrom (BUFSIZ.toNat - 1) [] file
    else fgetsFrom (room - 1) (line ++ [c]) file

def fgetsLines (file : List UInt8) : List (List UInt8) := fgetsFrom (BUFSIZ.toNat - 1) [] file

theorem fgetsFrom_line {line : List UInt8} (unbroken : 10 ∉ line) (room : Nat)
    (long : line.length < room) (before file : List UInt8) :
    fgetsFrom room before (line ++ 10::file) = (before ++ line ++ [10])::fgetsLines file := by
  induction line generalizing room before with
  | nil =>
    rw [List.nil_append,fgetsFrom,if_pos (Or.inl rfl),List.append_nil]
    rfl
  | cons c line ih =>
    obtain ⟨other,rest⟩ := not_or.mp (mt List.mem_cons.mpr unbroken)
    have more : line.length < room - 1 := by
      rw [List.length_cons] at long
      omega
    have fits : ¬(c = 10 ∨ room ≤ 1) := by
      rw [List.length_cons] at long
      exact not_or.mpr ⟨Ne.symm other,by omega⟩
    rw [List.cons_append,fgetsFrom,if_neg fits,ih rest _ more,List.append_assoc before [c] line]
    rfl

/-- Lines that are short enough for the buffer come one at a time. -/
theorem fgetsLines_short (lines : List (List UInt8))
    (short : ∀ line ∈ lines, 10 ∉ line ∧ line.length < BUFSIZ - 1) :
    fgetsLines (lines.flatMap (· ++ [10])) = lines.map (· ++ [10]) := by
  induction lines with
  | nil => rfl
  | cons line lines ih =>
    obtain ⟨⟨unbroken,fits⟩,rest⟩ := List.forall_mem_cons.mp short
    have room : line.length < BUFSIZ.toNat - 1 := by
      change (line.length : Int) < 8192 - 1 at fits
      change line.length < 8192 - 1
      omega
    rw [List.flatMap_cons,List.append_assoc,List.singleton_append,List.map_cons,← ih rest]
    exact fgetsFrom_line unbroken _ room [] _

/-- The C string in the buffer. -/
def cString (buffer : List UInt8) : List UInt8 := buffer.takeWhile (· ≠ 0)

example : fgetsLines (ascii "a\nb = c") = [ascii "a\n",ascii "b = c"] := by decide

example : parseEntry (ascii "  Serial Device\t= /dev/ttyUSB0 \r\n") =
    .ok ⟨.DEVICE,.STRING,ascii "/dev/ttyUSB0"⟩ := by rfl

end SerialIp
