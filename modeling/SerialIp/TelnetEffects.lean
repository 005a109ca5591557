import SerialIp.ComPort

/-! What sending and answering leave alone. A transmission changes the buffer
towards the client, the answers to come and the wire, nothing else; an answer
is reported to syslog before anything is done about it. -/
namespace SerialIp
open Library Session

def calls (s : Session) : List (OptCode × UInt8) :=
  s.notices.filterMap fun
    | .received optcode option => some (optcode,option)
    | _ => none

def dispatches (s : Session) : List (UInt8 × Nat × List UInt8) :=
  s.notices.filterMap fun
    | .suboption suboptcode value command => some (suboptcode,value,command)
    | _ => none

def Transmits (s t : Session) : Prop :=
  t = {s with sabre := t.sabre, optstr := t.optstr, replies := t.replies, wire := t.wire}

theorem Transmits.refl (s : Session) : Transmits s s := rfl

theorem Transmits.trans {a b c : Session} (first : Transmits a b) (second : Transmits b c) :
    Transmits a c := by
  unfold Transmits at second ⊢
  rw [first] at second
  exact second

theorem Transmits.tnoptions {s t : Session} (transmits : Transmits s t) :
    t.tnoptions = s.tnoptions := by
  unfold Transmits at transmits
  rw [transmits]

theorem Transmits.tnmode {s t : Session} (transmits : Transmits s t) : t.tnmode = s.tnmode := by
  unfold Transmits at transmits
  rw [transmits]

theorem Transmits.sessionState {s t : Session} (transmits : Transmits s t) :
    t.sessionState = s.sessionState := by
  unfold Transmits at transmits
  rw [transmits]

theorem Transmits.notices {s t : Session} (transmits : Transmits s t) : t.notices = s.notices := by
  unfold Transmits at transmits
  rw [transmits]

theorem Transmits.device {s t : Session} (transmits : Transmits s t) : t.device = s.device := by
  unfold Transmits at transmits
  rw [transmits]

theorem appendToSabre_transmits (bytes : List UInt8) (s : Session) :
    Transmits s (s.appendToSabre bytes) := rfl

theorem writeSabre_transmits (s : Session) : Transmits s s.writeSabre.2 := by
  unfold writeSabre
  dsimp only
  split
  · exact Transmits.refl s
  · rfl

theorem sendTelnetCpcSuboption_transmits (suboptcode : UInt8) (content : List UInt8) (s : Session) :
    Transmits s (sendTelnetCpcSuboption suboptcode content s).2 := by
  have append (bytes : List UInt8) (block : Block UInt8) :
      Transmits s ({s with optstr := block}.appendToSabre bytes) := rfl
  unfold sendTelnetCpcSuboption
  dsimp only
  split
  · split
    · exact (append _ _).trans (writeSabre_transmits _)
    · exact (append _ _).trans (writeSabre_transmits _)
  · exact append _ _

/-- An answer to a suboption: the option table, the state of the session and
what is told about commands stay as they are. -/
structure Answers (s t : Session) : Prop where
  tnoptions : t.tnoptions = s.tnoptions
  sessionState : t.sessionState = s.sessionState
  calls : calls t = calls s
  dispatches : dispatches t = dispatches s

theorem Answers.trans {a b c : Session} (first : Answers a b) (second : Answers b c) :
    Answers a c :=
  ⟨second.tnoptions.trans first.tnoptions,second.sessionState.trans first.sessionState,
    second.calls.trans first.calls,second.dispatches.trans first.dispatches⟩

theorem Transmits.answers {s t : Session} (transmits : Transmits s t) : Answers s t := by
  refine ⟨transmits.tnoptions,transmits.sessionState,?_,?_⟩
  · unfold calls
    rw [transmits.notices]
  · unfold dispatches
    rw [transmits.notices]

/-- What a property of sessions must survive in order to survive the answer to
any suboption. -/
structure Survives (holds : Session → Prop) : Prop where
  sent : ∀ suboptcode content s, holds s → holds (sendTelnetCpcSuboption suboptcode content s).2
  device : ∀ device s, holds s → holds {s with device := device}
  allocs : ∀ allocs s, holds s → holds {s with allocs := allocs}
  asked : ∀ asked s, holds s → holds {s with askClientSignature := asked}
  signed : ∀ text s, holds s → holds (s.notice (.clientSignature text))

theorem Survives.setting {holds : Session → Prop} (survives : Survives holds) (request : Nat)
    (get : SerialDevice → Nat × SerialDevice) (set : Nat → SerialDevice → Int × SerialDevice)
    (reply : UInt8) (width value : Nat) {s : Session} (start : holds s) :
    holds (respondSetting request get set reply width value s).2 := by
  unfold respondSetting
  dsimp only
  split
  · exact survives.sent _ _ _ (survives.device _ _ start)
  · exact survives.sent _ _ _ (survives.device _ _ start)

theorem Survives.signature {holds : Session → Prop} (survives : Survives holds) {s : Session}
    (start : holds s) : holds (respondTelnetCpcSignatureSubopt s).2 := by
  unfold respondTelnetCpcSignatureSubopt
  dsimp only
  split
  · generalize (if s.allocs.headD true then SerialIp.signature s else plainSignature) = content
    have replied := survives.sent CPC_SIGNATURE_S2C content _ (survives.allocs s.allocs.tail _ start)
    split
    · exact survives.asked _ _ (survives.sent _ _ _ replied)
    · exact replied
  · exact survives.signed _ _ start

theorem Survives.dispatch {holds : Session → Prop} (survives : Survives holds) (suboptcode : UInt8)
    (value : Nat) {s : Session} (start : holds s) : holds (dispatchSuboption suboptcode value s).2 := by
  unfold dispatchSuboption
  split
  · exact survives.signature start
  · split
    · exact survives.setting _ _ _ _ _ _ start
    · split
      · exact survives.setting _ _ _ _ _ _ start
      · split
        · exact survives.setting _ _ _ _ _ _ start
        · split
          · exact survives.setting _ _ _ _ _ _ start
          · exact start

theorem dispatchSuboption_answers (suboptcode : UInt8) (value : Nat) (s : Session) :
    Answers s (dispatchSuboption suboptcode value s).2 := by
  have survives : Survives (Answers s) := by
    refine ⟨?_,?_,?_,?_,?_⟩
    · intro suboptcode content t answers
      exact answers.trans (sendTelnetCpcSuboption_transmits suboptcode content t).answers
    · intro device t answers
      exact answers.trans ⟨rfl,rfl,rfl,rfl⟩
    · intro allocs t answers
      exact answers.trans ⟨rfl,rfl,rfl,rfl⟩
    · intro asked t answers
      exact answers.trans ⟨rfl,rfl,rfl,rfl⟩
    · intro text t answers
      refine answers.trans ⟨rfl,rfl,?_,?_⟩
      · simp [calls,notice]
      · simp [dispatches,notice]
  exact survives.dispatch suboptcode value ⟨rfl,rfl,rfl,rfl⟩

/-- A suboption is dropped, or told about and dispatched. -/
theorem processTelnetCpcSuboption_cases (mem : Block UInt8) (optstr optlen : Int) (s : Session) :
    (processTelnetCpcSuboption mem optstr optlen s).2 = s ∨
      ∃ command suboptcode text, (processTelnetCpcSuboption mem optstr optlen s).2 =
        (dispatchSuboption suboptcode (commandValue text) ({s with command := command}.notice
          (.suboption suboptcode (commandValue text) text))).2 := by
  unfold processTelnetCpcSuboption
  dsimp only
  split
  · exact Or.inl rfl
  · split
    · exact Or.inl rfl
    · split
      · exact Or.inl rfl
      · exact Or.inr ⟨_,_,_,rfl⟩

theorem processTelnetCpcSuboption_calls (mem : Block UInt8) (optstr optlen : Int) (s : Session) :
    calls (processTelnetCpcSuboption mem optstr optlen s).2 = calls s := by
  rcases processTelnetCpcSuboption_cases mem optstr optlen s with same | ⟨command,suboptcode,text,same⟩
  · rw [same]
  · rw [same,(dispatchSuboption_answers _ _ _).calls]
    simp [calls,notice]

private theorem suboption_found {mem : Block UInt8} {start size : Int} {suboptcode : UInt8}
    {text after : List UInt8}
    (content : mem.read start size.toNat = suboptcode::(text ++ SE::after)) (first : SE ∉ text) :
    mem.cell start = suboptcode ∧ mem.read (start+1) text.length = text ∧
      size = text.length+after.length+2 ∧
      mystrchr mem (start+1) SE (size-1) = some (start+1+text.length) := by
  have length := congrArg List.length content
  simp only [Block.read_length,List.length_append,List.length_cons] at length
  have whole : mem.read start ([suboptcode] ++ (text ++ SE::after)).length =
      [suboptcode] ++ (text ++ SE::after) := by
    have count : ([suboptcode] ++ (text ++ SE::after)).length = size.toNat := by
      simp only [List.length_append,List.length_cons,List.length_nil]
      omega
    rw [count,content]
    rfl
  have behind : mem.read (start+1) (text ++ SE::after).length = text ++ SE::after :=
    (Block.read_split mem whole).2
  have count : (size-1).toNat = (text ++ SE::after).length := by
    simp only [List.length_append,List.length_cons]
    omega
  refine ⟨?_,(Block.read_split mem behind).1,by omega,?_⟩
  · exact Block.head_of_read mem content
  · rw [← count] at behind
    exact mystrchr_first behind first

private theorem command_terminated (command : Block UInt8) (text : List UInt8) :
    Terminated ((command.copy 0 text).store text.length 0) text := by
  unfold Terminated
  rw [List.length_append,Block.read_append]
  congr 1
  · conv_rhs => rw [← Block.read_copy command 0 text]
    apply Block.read_eq
    intro k bound
    exact Block.store_other _ _ (by omega)
  · simp [Block.read]

/-- A suboption whose first SE comes right behind an IAC is dispatched with what
lies between its code and that IAC, decoded. -/
theorem processTelnetCpcSuboption_dispatches {mem : Block UInt8} {start size : Int}
    {suboptcode : UInt8} {text after : List UInt8} (s : Session)
    (content : mem.read start size.toNat = suboptcode::((text ++ [IAC]) ++ SE::after))
    (fits : text.length < 256) (first : SE ∉ text) :
    dispatches (processTelnetCpcSuboption mem start size s).2 = dispatches s ++
      [(suboptcode,commandValue (unstuff IAC text),unstuff IAC text)] := by
  have absent : SE ∉ text ++ [IAC] := by
    rw [List.mem_append,not_or]
    exact ⟨first,by decide⟩
  obtain ⟨code,between,long,found⟩ := suboption_found content absent
  have size : ((text ++ [IAC]).length : Int) = text.length+1 := by simp
  have mark : mem.cell (start+1+(text ++ [IAC]).length-1) = IAC := by
    have last := Block.last_of_read mem between
    rw [size]
    rw [← last]
    congr 1
    omega
  have payload : mem.read (start+1) text.length = text := (Block.read_split mem between).1
  have len : start+1+((text ++ [IAC]).length : Int)-1-(start+1) = text.length := by
    rw [size]
    omega
  obtain ⟨decoded,left⟩ := unescapeCommand_holds (command_terminated s.command text)
  have result := decoded.read
  unfold processTelnetCpcSuboption
  rw [if_neg (by rw [size] at long; omega)]
  dsimp only
  rw [found]
  dsimp only
  rw [mark,if_neg (not_not.mpr rfl),len,if_neg (by unfold MAX_TELNET_CPC_COMMAND_LEN; omega)]
  rw [Int.toNat_natCast,payload,left,Int.toNat_natCast,result,code]
  rw [(dispatchSuboption_answers _ _ _).dispatches]
  simp [dispatches,notice]

/-- The command that a suboption carries between its code and the IAC SE, decoded; what does
not fit into the array is left out before. -/
def carried (text : List UInt8) : List UInt8 := unstuff IAC (text.take 255)

theorem processTelnetCpcSuboption_carries {mem : Block UInt8} {start size : Int}
    {suboptcode : UInt8} {text after : List UInt8} (s : Session)
    (content : mem.read start size.toNat = suboptcode::((text ++ [IAC]) ++ SE::after))
    (first : SE ∉ text) : ∃ command, Terminated command (carried text) ∧
      (processTelnetCpcSuboption mem start size s).2 =
        (dispatchSuboption suboptcode (commandValue (carried text)) ({s with command := command}.notice
          (.suboption suboptcode (commandValue (carried text)) (carried text)))).2 := by
  have absent : SE ∉ text ++ [IAC] := by
    rw [List.mem_append,not_or]
    exact ⟨first,by decide⟩
  obtain ⟨code,between,long,found⟩ := suboption_found content absent
  have size : ((text ++ [IAC]).length : Int) = text.length+1 := by simp
  have mark : mem.cell (start+1+(text ++ [IAC]).length-1) = IAC := by
    have last := Block.last_of_read mem between
    rw [size,← last]
    congr 1
    omega
  have payload : mem.read (start+1) (text.take 255).length = text.take 255 := by
    have whole := (Block.read_split mem between).1
    rw [← List.take_append_drop 255 text] at whole
    exact (Block.read_split mem whole).1
  have len : (if start+1+((text ++ [IAC]).length : Int)-1-(start+1) ≥ MAX_TELNET_CPC_COMMAND_LEN
      then MAX_TELNET_CPC_COMMAND_LEN-1 else start+1+((text ++ [IAC]).length : Int)-1-(start+1)) =
      (text.take 255).length := by
    rw [size,List.length_take]
    unfold MAX_TELNET_CPC_COMMAND_LEN
    split <;> omega
  obtain ⟨decoded,left⟩ := unescapeCommand_holds (command_terminated s.command (text.take 255))
  have result := decoded.read
  refine ⟨_,decoded,?_⟩
  unfold processTelnetCpcSuboption carried
  rw [if_neg (by rw [size] at long; omega)]
  dsimp only
  rw [found]
  dsimp only
  rw [mark,if_neg (not_not.mpr rfl),len]
  rw [Int.toNat_natCast,payload,left,Int.toNat_natCast,result,code]

theorem processTelnetCpcSuboption_ignored {mem : Block UInt8} {start size : Int}
    {suboptcode : UInt8} {text after : List UInt8} (s : Session)
    (content : mem.read start size.toNat = suboptcode::(text ++ SE::after))
    (first : SE ∉ text) (other : (suboptcode::text).getLast? ≠ some IAC) :
    (processTelnetCpcSuboption mem start size s).2 = s := by
  obtain ⟨code,between,long,found⟩ := suboption_found content first
  have mark : mem.cell (start+1+text.length-1) ≠ IAC := by
    rcases List.eq_nil_or_concat text with rfl | ⟨begin,byte,rfl⟩
    · intro marked
      simp [← marked,code] at other
    · rw [List.concat_eq_append] at between other ⊢
      intro marked
      have last := Block.last_of_read mem between
      have place : start+1+((begin ++ [byte]).length : Int)-1 = start+1+begin.length := by
        rw [List.length_append,List.length_cons,List.length_nil]
        omega
      rw [place,last] at marked
      apply other
      rw [marked,← List.cons_append,List.getLast?_concat]
  unfold processTelnetCpcSuboption
  split
  · rfl
  · dsimp only
    rw [found]
    dsimp only
    rw [if_pos mark]

/-- The side of the connection a command is about, and whether it asks to enable
the option there. -/
def OptCode.side : OptCode → Side
  | .WILL | .WONT => .CLIENT
  | .DO | .DONT => .SERVER

def OptCode.enables : OptCode → Bool
  | .WILL | .DO => true
  | .WONT | .DONT => false

/-- What the server sends to agree to an option or to its withdrawal. -/
def Side.accept : Side → OptCode
  | .CLIENT => .DO
  | .SERVER => .WILL

def Side.refuse : Side → OptCode
  | .CLIENT => .DONT
  | .SERVER => .WONT

/-- The commands that ask for an option on a side and that withdraw it. -/
def Side.ask : Side → OptCode
  | .CLIENT => .WILL
  | .SERVER => .DO

def Side.withdraw : Side → OptCode
  | .CLIENT => .WONT
  | .SERVER => .DONT

def OptCode.reply (optcode : OptCode) : OptCode :=
  if optcode.enables then optcode.side.accept else optcode.side.refuse

def TelnetOptions.flag (entry : TelnetOptions) : Side → Bool
  | .CLIENT => entry.client
  | .SERVER => entry.server

def TelnetOptions.setFlag (side : Side) (value : Bool) (entry : TelnetOptions) : TelnetOptions :=
  match side with
  | .CLIENT => {entry with client := value}
  | .SERVER => {entry with server := value}

/-- The four branches of the switch as one: a command that asks for what already
holds is dropped, any other one is answered and carried out. -/
theorem answerTelnetOption_eq (setMode : Side → TnMode → Session → Session) (optcode : OptCode)
    (option : UInt8) (s : Session) :
    (answerTelnetOption setMode optcode option s).2 =
      if (s.tnoptions option).flag optcode.side = optcode.enables then s
      else setMode optcode.side (if optcode.enables then .BINARY else .ASCII)
        ((sendTelnetOption optcode.reply option s).2.setOption option
          (TelnetOptions.setFlag optcode.side optcode.enables)) := by
  cases optcode with
  | WILL | WONT =>
    cases enabled : (s.tnoptions option).client <;>
      (simp only [answerTelnetOption,telnetClientOptionIsDisabled,telnetClientOptionIsEnabled,
        OptCode.side,TelnetOptions.flag,enabled]
       rfl)
  | DO | DONT =>
    cases enabled : (s.tnoptions option).server <;>
      (simp only [answerTelnetOption,telnetServerOptionIsDisabled,telnetServerOptionIsEnabled,
        OptCode.side,TelnetOptions.flag,enabled]
       rfl)

/-- The rule for a transmission: it appends, writes and marks, and may end after each. -/
theorem sendTelnetOption_keeps (holds : Session → Prop) {optcode : OptCode} {option : UInt8}
    (append : ∀ bytes s, holds s → holds (s.appendToSabre bytes))
    (write : ∀ s, holds s → holds s.writeSabre.2)
    (mark : ∀ s, holds s → holds (markTelnetOptionAsSent optcode option s)) {s : Session}
    (start : holds s) : holds (sendTelnetOption optcode option s).2 := by
  have appended := append (optstr optcode option) s start
  have written := write _ appended
  unfold sendTelnetOption
  dsimp only
  split
  · exact start
  · split
    · split
      · exact mark _ written
      · exact written
    · exact appended

theorem sendTelnetOption_notices (optcode : OptCode) (option : UInt8) (s : Session) :
    (sendTelnetOption optcode option s).2.notices = s.notices := by
  apply sendTelnetOption_keeps (fun t => t.notices = s.notices) _ _ _ rfl
  · intro bytes t same
    exact same
  · intro t same
    exact (writeSabre_transmits t).notices.trans same
  · intro t same
    cases optcode <;> exact same

/-- What transmissions keep holds after telnet_init if it holds after its reset. -/
theorem telnetInit_keeps (holds : Session → Prop)
    (sent : ∀ optcode option s, holds s → holds (sendTelnetOption optcode option s).2) {s : Session}
    (reset : holds (resetGlobals s)) : holds (telnetInit s) := by
  have offers (offers : List (OptCode × UInt8)) {t : Session} (start : holds t) :
      holds (offers.foldl (fun s offer => (sendInitTelnetOption offer.1 offer.2 s).2) t) := by
    induction offers generalizing t with
    | nil => exact start
    | cons offer offers ih => exact ih (sent offer.1 offer.2 t start)
  exact offers initialOffers reset

/-- What a property of sessions must survive in order to survive the answer to any
command about `option`. -/
structure Responds (option : UInt8) (holds : Session → Prop) : Prop where
  sent : ∀ optcode s, holds s → holds (sendTelnetOption optcode option s).2
  turned : ∀ side value s, holds s → holds (s.setOption option (TelnetOptions.setFlag side value))
  mode : ∀ side mode s, holds s → holds (s.setTnmode side mode)
  left : ∀ s, holds s → holds {s with clientLoggedIn := false}

theorem Responds.answer {option : UInt8} {holds : Session → Prop} (responds : Responds option holds)
    {setMode : Side → TnMode → Session → Session}
    (neutral : ∀ side mode s, holds s → holds (setMode side mode s)) (optcode : OptCode)
    {s : Session} (start : holds s) : holds (answerTelnetOption setMode optcode option s).2 := by
  rw [answerTelnetOption_eq]
  split
  · exact start
  · apply neutral
    apply responds.turned
    exact responds.sent optcode.reply s start

theorem Responds.respond {option : UInt8} {holds : Session → Prop} (responds : Responds option holds)
    (optcode : OptCode) {s : Session} (start : holds (s.notice (.received optcode option))) :
    holds (respondTelnetOption optcode option s).2 := by
  have known {t : Session} (start : holds t) : holds (answerKnown optcode option t).2 :=
    responds.answer (fun _ _ _ kept => kept) optcode start
  have binary {t : Session} (start : holds t) : holds (answerBinary optcode option t).2 :=
    responds.answer responds.mode optcode start
  have supported : holds (respondKnownTelnetOption optcode option
      (s.notice (.received optcode option))).2 := by
    unfold respondKnownTelnetOption
    split
    · exact binary start
    · exact known start
  unfold respondTelnetOption
  dsimp only
  split
  · exact supported
  · split
    · split
      · exact responds.left _ supported
      · exact supported
    · split
      · unfold respondTelnetBinaryOption
        split
        · exact known start
        · exact binary start
      · exact responds.sent _ _ start

theorem respondTelnetOption_notices (optcode : OptCode) (option : UInt8) (s : Session) :
    (respondTelnetOption optcode option s).2.notices = s.notices ++ [.received optcode option] := by
  have responds : Responds option fun t => t.notices = s.notices ++ [.received optcode option] := by
    refine ⟨?_,?_,?_,?_⟩
    · intro code t same
      exact (sendTelnetOption_notices code option t).trans same
    · intro side value t same
      exact same
    · intro side mode t same
      exact same
    · intro t same
      exact same
  exact responds.respond optcode rfl

def respondAll (calls : List (OptCode × UInt8)) (s : Session) : Session :=
  calls.foldl (fun s call => (respondTelnetOption call.1 call.2 s).2) s

theorem respondTelnetOption_calls (optcode : OptCode) (option : UInt8) (s : Session) :
    calls (respondTelnetOption optcode option s).2 = calls s ++ [(optcode,option)] := by
  simp [calls,respondTelnetOption_notices]

end SerialIp
