import SerialIp.Library.Stuffing
import SerialIp.TelnetOption

/-! Com Port Control suboptions (telnet.c): how one is sent, how one is taken
apart, and the answers to the signature and the four line settings. -/
namespace SerialIp
open Library Session

def MAX_TELNET_CPC_COMMAND_LEN : Int := 256

/-- The loop that copies the content to `optstr` and doubles each IAC; it stops
as soon as `size` has passed the limit. -/
def escapeContent : Block UInt8 → Int → Int → List UInt8 → Block UInt8 × Int × Int
  | optstr,p,size,[] => (optstr,p,size)
  | optstr,p,size,c::rest =>
    if c = IAC then
      let optstr := optstr.store p IAC
      let size := size+1
      if size > MAX_TELNET_CPC_COMMAND_LEN then (optstr,p+1,size)
      else
        let optstr := optstr.store (p+1) c
        let size := size+1
        if size > MAX_TELNET_CPC_COMMAND_LEN then (optstr,p+2,size)
        else escapeContent optstr (p+2) size rest
    else
      let optstr := optstr.store p c
      let size := size+1
      if size > MAX_TELNET_CPC_COMMAND_LEN then (optstr,p+1,size)
      else escapeContent optstr (p+1) size rest

/-- The suboption in `optstr` and its size, the final NUL not counted. The whole
of `content` is what the C `cmdlen` counts. -/
def buildSuboption (optstr : Block UInt8) (suboptcode : UInt8) (content : List UInt8) :
    Block UInt8 × Int :=
  let optstr := optstr.copy 0 [IAC,SB,TELOPT_COM_PORT_OPTION,suboptcode]
  let cmdlen : Int := content.length
  let cmdlen := if cmdlen ≥ MAX_TELNET_CPC_COMMAND_LEN then MAX_TELNET_CPC_COMMAND_LEN-1 else cmdlen
  let (optstr,p,size) := escapeContent optstr 4 4 (content.take cmdlen.toNat)
  (optstr.copy p [IAC,SE,0],size+2)

theorem escapeContent_eq (optstr : Block UInt8) (p : Int) {size : Int} (content : List UInt8)
    (room : size ≤ 256) : escapeContent optstr p size content =
      (optstr.copy p ((stuff IAC content).take (257-size).toNat),
        p+((stuff IAC content).take (257-size).toNat).length,
        size+((stuff IAC content).take (257-size).toNat).length) := by
  induction content generalizing optstr p size with
  | nil => simp [escapeContent,Block.copy]
  | cons c rest ih =>
    obtain ⟨left,count⟩ : ∃ left, (257-size).toNat = left+1 := ⟨(256-size).toNat,by omega⟩
    unfold escapeContent MAX_TELNET_CPC_COMMAND_LEN
    rw [count]
    by_cases marker : c = IAC
    · subst c
      rw [if_pos rfl,stuff_marker,List.take_succ_cons]
      dsimp only
      by_cases first : size+1 > 256
      · have none : left = 0 := by omega
        rw [if_pos first,none]
        rfl
      · obtain ⟨further,less⟩ : ∃ further, left = further+1 := ⟨left-1,by omega⟩
        rw [if_neg first,less,List.take_succ_cons]
        by_cases second : size+1+1 > 256
        · have none : further = 0 := by omega
          rw [if_pos second,none]
          simp [Block.copy]
          omega
        · have rest : (257-(size+1+1)).toNat = further := by omega
          rw [if_neg second,ih _ _ (by omega),rest]
          simp only [Block.copy,List.length_cons,Nat.cast_add,Nat.cast_one,Prod.mk.injEq]
          refine ⟨?_,by omega,by omega⟩
          rw [add_assoc]
          rfl
    · rw [if_neg marker,stuff_other marker,List.take_succ_cons]
      dsimp only
      by_cases full : size+1 > 256
      · have none : left = 0 := by omega
        rw [if_pos full,none]
        rfl
      · have rest : (257-(size+1)).toNat = left := by omega
        rw [if_neg full,ih _ _ (by omega),rest]
        simp only [Block.copy,List.length_cons,Nat.cast_add,Nat.cast_one,Prod.mk.injEq]
        exact ⟨trivial,by omega,by omega⟩

/-- What is sent for a suboption: of the doubled content at most 253 bytes. -/
def suboption (suboptcode : UInt8) (content : List UInt8) : List UInt8 :=
  [IAC,SB,TELOPT_COM_PORT_OPTION,suboptcode] ++ (stuff IAC content).take 253 ++ [IAC,SE]

theorem suboption_length (suboptcode : UInt8) (content : List UInt8) :
    (suboption suboptcode content).length ≤ 259 := by
  simp only [suboption,List.length_append,List.length_cons,List.length_nil,List.length_take]
  omega

theorem buildSuboption_eq (optstr : Block UInt8) (suboptcode : UInt8) (content : List UInt8) :
    buildSuboption optstr suboptcode content =
      (optstr.copy 0 (suboption suboptcode content ++ [0]),
        ((suboption suboptcode content).length : Int)) := by
  obtain ⟨bound,limit,kept⟩ : ∃ bound : Nat,
      (if (content.length : Int) ≥ MAX_TELNET_CPC_COMMAND_LEN then MAX_TELNET_CPC_COMMAND_LEN-1
        else (content.length : Int)).toNat = bound ∧
      (stuff IAC (content.take bound)).take 253 = (stuff IAC content).take 253 := by
    refine ⟨_,rfl,?_⟩
    split_ifs with long
    · exact stuff_take IAC content (by decide)
    · rw [Int.toNat_natCast,List.take_length]
  unfold buildSuboption
  dsimp only
  rw [limit,escapeContent_eq _ _ _ (by decide)]
  have room : (257-4 : Int).toNat = 253 := rfl
  have whole : suboption suboptcode content ++ [0] = [IAC,SB,TELOPT_COM_PORT_OPTION,suboptcode] ++
      ((stuff IAC content).take 253 ++ [IAC,SE,0]) := by
    simp [suboption]
  have size : ((suboption suboptcode content).length : Int) =
      4+((stuff IAC content).take 253).length+2 := by
    simp only [suboption,List.length_append,List.length_cons,List.length_nil]
    omega
  rw [room,kept,whole,size,Block.copy_append,Block.copy_append]
  rfl

theorem buildSuboption_read (optstr : Block UInt8) (suboptcode : UInt8) (content : List UInt8) :
    (buildSuboption optstr suboptcode content).1.read 0
        (buildSuboption optstr suboptcode content).2.toNat = suboption suboptcode content := by
  rw [buildSuboption_eq,Int.toNat_natCast]
  exact (Block.read_split _ (Block.read_copy optstr 0 (suboption suboptcode content ++ [0]))).1

def sendTelnetCpcSuboption (suboptcode : UInt8) (content : List UInt8) (s : Session) :
    Int × Session :=
  let (optstr,size) := buildSuboption s.optstr suboptcode content
  let s := {s with optstr := optstr}.appendToSabre (optstr.read 0 size.toNat)
  if s.sessionState = .RESUME then
    let (ret,s) := s.writeSabre
    if ret ≥ size then (0,s) else (1,s)
  else (0,s)

def signature (s : Session) : List UInt8 :=
  let device := (s.si.bind (·.device)).elim [] (ascii ", " ++ ·)
  let description := (s.si.bind (·.description)).elim [] (ascii ", " ++ ·)
  s.programName ++ ascii " " ++ s.version ++ device ++ description

def plainSignature : List UInt8 := ascii "serial_ip"

def commandText (s : Session) : List UInt8 :=
  (s.command.read 0 MAX_TELNET_CPC_COMMAND_LEN.toNat).takeWhile (· ≠ 0)

def respondTelnetCpcSignatureSubopt (s : Session) : Int × Session :=
  if s.command.cell 0 = 0 then
    let content := if s.allocs.headD true then signature s else plainSignature
    let (ret,s) := sendTelnetCpcSuboption CPC_SIGNATURE_S2C content {s with allocs := s.allocs.tail}
    if ret = 0 ∧ s.askClientSignature then
      let (ret,s) := sendTelnetCpcSuboption CPC_SIGNATURE_C2S [] s
      (ret,{s with askClientSignature := false})
    else (ret,s)
  else (0,s.notice (.clientSignature (commandText s)))

def bigEndian : Nat → Nat → List UInt8
  | 0,_ => []
  | width+1,value => bigEndian width (value/256) ++ [UInt8.ofNat value]

/-- One line setting: a request is answered with the setting as it is, any other
value is set first. -/
def respondSetting (request : Nat) (get : SerialDevice → Nat × SerialDevice)
    (set : Nat → SerialDevice → Int × SerialDevice) (reply : UInt8) (width value : Nat)
    (s : Session) : Int × Session :=
  if value = request then
    let (current,device) := get s.device
    sendTelnetCpcSuboption reply (bigEndian width current) {s with device := device}
  else
    let (ret,device) := set value s.device
    let (current,device) := get device
    let (sent,s) := sendTelnetCpcSuboption reply (bigEndian width current) {s with device := device}
    (ret+sent,s)

def respondTelnetCpcBaudrateSubopt : Nat → Session → Int × Session :=
  respondSetting 0 SerialDevice.getBaudrate SerialDevice.setBaudrate CPC_SET_BAUDRATE_S2C 4

def respondTelnetCpcDatasizeSubopt : Nat → Session → Int × Session :=
  respondSetting CPC_DATASIZE_REQUEST SerialDevice.getDatasize SerialDevice.setDatasize
    CPC_SET_DATASIZE_S2C 1

def respondTelnetCpcParitySubopt : Nat → Session → Int × Session :=
  respondSetting CPC_PARITY_REQUEST SerialDevice.getParity SerialDevice.setParity
    CPC_SET_PARITY_S2C 1

def respondTelnetCpcStopsizeSubopt : Nat → Session → Int × Session :=
  respondSetting CPC_STOPSIZE_REQUEST SerialDevice.getStopsize SerialDevice.setStopsize
    CPC_SET_STOPSIZE_S2C 1

/-- With `iac` on an IAC: the second byte of a pair goes, a lone IAC stays. -/
def closePair (command : Block UInt8) (iac len : Int) : Block UInt8 × Int :=
  if command.cell (iac+1) = IAC then
    (command.shiftLeft (iac+1) (iac+2) (len-(iac+1)).toNat,len-1)
  else (command,len)

theorem closePair_len (command : Block UInt8) (iac len : Int) :
    (closePair command iac len).2 ≤ len := by
  unfold closePair
  split_ifs
  · exact Int.sub_le_self len (by decide)
  · exact le_refl len

def unescapeLoop (command : Block UInt8) (iac len : Int) : Block UInt8 × Int :=
  match _found : mystrchr (closePair command iac len).1 (iac+1) IAC
      ((closePair command iac len).2-(iac+1)) with
  | none => closePair command iac len
  | some next => unescapeLoop (closePair command iac len).1 next (closePair command iac len).2
termination_by (len-iac).toNat
decreasing_by
  have place := mystrchr_bounds _found
  have shorter := closePair_len command iac len
  omega

def unescapeCommand (command : Block UInt8) (len : Int) : Block UInt8 × Int :=
  match mystrchr command 0 IAC len with
  | none => (command,len)
  | some iac => unescapeLoop command iac len

def Terminated (command : Block UInt8) (text : List UInt8) : Prop :=
  command.read 0 (text ++ [0]).length = text ++ [0]

theorem Terminated.cell {command : Block UInt8} {before after : List UInt8} {byte : UInt8}
    (holds : Terminated command (before ++ byte::after)) : command.cell before.length = byte := by
  have content : command.read 0 (before ++ byte::(after ++ [0])).length =
      before ++ byte::(after ++ [0]) := by
    simpa [Terminated] using holds
  simpa using Block.cell_of_read command content

theorem Terminated.stop {command : Block UInt8} {text : List UInt8}
    (holds : Terminated command text) : command.cell text.length = 0 := by
  simpa using Block.cell_of_read command holds

theorem Terminated.rest {command : Block UInt8} {before after : List UInt8}
    (holds : Terminated command (before ++ after)) :
    command.read before.length after.length = after := by
  have content : command.read 0 (before ++ (after ++ [0])).length = before ++ (after ++ [0]) := by
    simpa [Terminated] using holds
  have behind := (Block.read_split command content).2
  rw [zero_add] at behind
  exact (Block.read_split command behind).1

theorem Terminated.read {command : Block UInt8} {text : List UInt8}
    (holds : Terminated command text) : command.read 0 text.length = text :=
  (Block.read_split command holds).1

theorem closePair_pair {command : Block UInt8} {done left : List UInt8}
    (holds : Terminated command (done ++ IAC::IAC::left)) :
    Terminated (closePair command done.length (done ++ IAC::IAC::left).length).1 (done ++ IAC::left) ∧
      (closePair command done.length (done ++ IAC::IAC::left).length).2 =
        (done ++ IAC::left).length := by
  have content : command.read 0 ((done ++ [IAC]) ++ ([IAC] ++ (left ++ [0]))).length =
      (done ++ [IAC]) ++ ([IAC] ++ (left ++ [0])) := by
    simpa [Terminated] using holds
  have second : command.cell (done.length+1) = IAC := by
    simpa using Block.cell_of_read command content
  have closed := Block.read_shiftLeft command content
  have target : (0 : Int)+(done ++ [IAC]).length = done.length+1 := by
    simp
  have source : (done.length : Int)+1+([IAC] : List UInt8).length = done.length+2 := by
    simp only [List.length_cons,List.length_nil]
    omega
  have count : (((done ++ IAC::IAC::left).length : Int)-(done.length+1)).toNat =
      (left ++ [0]).length := by
    simp only [List.length_append,List.length_cons,List.length_nil]
    omega
  rw [target,source] at closed
  unfold closePair
  rw [if_pos second,count]
  constructor
  · unfold Terminated
    rw [List.append_assoc] at closed ⊢
    exact closed
  · simp only [List.length_append,List.length_cons]
    omega

theorem closePair_lone {command : Block UInt8} {done left : List UInt8}
    (holds : Terminated command (done ++ IAC::left)) (lone : left.head? ≠ some IAC) (len : Int) :
    closePair command done.length len = (command,len) := by
  have whole : Terminated command ((done ++ [IAC]) ++ left) := by
    simpa using holds
  have place : ((done ++ [IAC]).length : Int) = done.length+1 := by
    simp
  unfold closePair
  rw [if_neg]
  intro double
  cases left with
  | nil =>
    rw [List.append_nil] at whole
    have stop := whole.stop
    rw [place,double] at stop
    contradiction
  | cons y left =>
    have next := whole.cell
    rw [place,double] at next
    exact lone (congrArg some next.symm)

theorem closePair_holds {command : Block UInt8} {done left : List UInt8}
    (holds : Terminated command (done ++ IAC::left)) :
    ∃ rest, unstuff IAC (IAC::left) = IAC::unstuff IAC rest ∧ rest.length ≤ left.length ∧
      Terminated (closePair command done.length (done ++ IAC::left).length).1 (done ++ IAC::rest) ∧
      (closePair command done.length (done ++ IAC::left).length).2 = (done ++ IAC::rest).length := by
  by_cases pair : left.head? = some IAC
  · obtain ⟨tail,rfl⟩ := List.head?_eq_some_iff.mp pair
    obtain ⟨closed,length⟩ := closePair_pair holds
    exact ⟨tail,unstuff_pair IAC tail,Nat.le_succ _,closed,length⟩
  · rw [closePair_lone holds pair]
    exact ⟨left,unstuff_lone IAC IAC (fun _ => pair),le_refl _,holds,rfl⟩

theorem unescapeLoop_holds {command : Block UInt8} {done left : List UInt8}
    (holds : Terminated command (done ++ IAC::left)) :
    Terminated (unescapeLoop command done.length (done ++ IAC::left).length).1
      (done ++ unstuff IAC (IAC::left)) ∧
    (unescapeLoop command done.length (done ++ IAC::left).length).2 =
      (done ++ unstuff IAC (IAC::left)).length := by
  induction size : left.length using Nat.strong_induction_on generalizing command done left with
  | _ n ih =>
    subst size
    obtain ⟨rest,decoded,shorter,closed,length⟩ := closePair_holds holds
    have content : (closePair command done.length (done ++ IAC::left).length).1.read
        (done.length+1) rest.length = rest := by
      have whole : Terminated (closePair command done.length (done ++ IAC::left).length).1
          ((done ++ [IAC]) ++ rest) := by
        simpa using closed
      simpa using whole.rest
    have remaining : (((done ++ IAC::rest).length : Int)-(done.length+1)).toNat = rest.length := by
      simp only [List.length_append,List.length_cons]
      omega
    rw [decoded,unescapeLoop]
    split
    · rename_i missing
      rw [length] at missing
      have absent := mystrchr_missing missing
      rw [remaining,content] at absent
      rw [unstuff_of_notMem absent]
      exact ⟨closed,length⟩
    · rename_i next found
      rw [length] at found
      obtain ⟨before,after,split,first,rfl⟩ := mystrchr_some found
      rw [remaining,content] at split
      subst split
      have further : Terminated (closePair command done.length (done ++ IAC::left).length).1
          ((done ++ IAC::before) ++ IAC::after) := by
        simpa using closed
      have place : (done.length : Int)+1+before.length = (done ++ IAC::before).length := by
        simp only [List.length_append,List.length_cons]
        omega
      have fewer : after.length < left.length := by
        simp only [List.length_append,List.length_cons] at shorter
        omega
      have result := ih after.length fewer further rfl
      rw [length,place,unstuff_append first]
      simpa using result

theorem unescapeCommand_holds {command : Block UInt8} {text : List UInt8}
    (holds : Terminated command text) :
    Terminated (unescapeCommand command text.length).1 (unstuff IAC text) ∧
      (unescapeCommand command text.length).2 = (unstuff IAC text).length := by
  have content := holds.read
  unfold unescapeCommand
  split
  · rename_i missing
    have absent := mystrchr_missing missing
    rw [Int.toNat_natCast,content] at absent
    rw [unstuff_of_notMem absent]
    exact ⟨holds,rfl⟩
  · rename_i iac found
    obtain ⟨before,after,split,first,rfl⟩ := mystrchr_some found
    rw [Int.toNat_natCast,content] at split
    subst split
    rw [unstuff_append first,zero_add]
    exact unescapeLoop_holds holds

def networkValue (bytes : List UInt8) : Nat := bytes.foldl (fun n byte => n*256+byte.toNat) 0

def commandValue (text : List UInt8) : Nat :=
  if text.length = 1 ∨ text.length = 2 ∨ text.length = 4 then networkValue text else 0

def dispatchSuboption (suboptcode : UInt8) (value : Nat) (s : Session) : Int × Session :=
  if suboptcode = CPC_SIGNATURE_C2S ∨ suboptcode = CPC_SIGNATURE_S2C then
    respondTelnetCpcSignatureSubopt s
  else if suboptcode = CPC_SET_BAUDRATE_C2S ∨ suboptcode = CPC_SET_BAUDRATE_S2C then
    respondTelnetCpcBaudrateSubopt value s
  else if suboptcode = CPC_SET_DATASIZE_C2S ∨ suboptcode = CPC_SET_DATASIZE_S2C then
    respondTelnetCpcDatasizeSubopt value s
  else if suboptcode = CPC_SET_PARITY_C2S ∨ suboptcode = CPC_SET_PARITY_S2C then
    respondTelnetCpcParitySubopt value s
  else if suboptcode = CPC_SET_STOPSIZE_C2S ∨ suboptcode = CPC_SET_STOPSIZE_S2C then
    respondTelnetCpcStopsizeSubopt value s
  else (0,s)

/-- `mem` is the block that `optstr` points into, `optlen` the number of bytes
of content from there on. -/
def processTelnetCpcSuboption (mem : Block UInt8) (optstr optlen : Int) (s : Session) :
    Int × Session :=
  if optlen < 3 then (1,s)
  else
    let suboptcode := mem.cell optstr
    let optstr := optstr+1
    let optlen := optlen-1
    match mystrchr mem optstr SE optlen with
    | none => (1,s)
    | some se =>
      let iac := se-1
      if mem.cell iac ≠ IAC then (1,s)
      else
        let len := iac-optstr
        let len := if len ≥ MAX_TELNET_CPC_COMMAND_LEN then MAX_TELNET_CPC_COMMAND_LEN-1 else len
        let command := s.command.copy 0 (mem.read optstr len.toNat)
        let (command,len) := unescapeCommand (command.store len 0) len
        let text := command.read 0 len.toNat
        let s := {s with command := command}
        dispatchSuboption suboptcode (commandValue text)
          (s.notice (.suboption suboptcode (commandValue text) text))

end SerialIp
