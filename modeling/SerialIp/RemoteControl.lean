import SerialIp.NegotiationRuns
import SerialIp.TelnetModes

/-! When the client may control the line. The scan is taken apart into the commands
it handles, so that the guard before a suboption can be held against the WILL and WONT
commands handled up to that very moment. -/
namespace SerialIp
open Library Buffer Session

/-- The search at the end of an iteration: the next command of the scan, if any. -/
def nextCommand (st : Scan) : Option Scan :=
  if st.size < 2 then none
  else
    match mystrchr st.buff.mem st.iac IAC st.size with
    | none => none
    | some iac =>
      let size := st.size-(iac-st.iac)
      if size < 2 then none else some {st with iac := iac, size := size}

theorem nextCommand_found {st next : Scan} (found : nextCommand st = some next) :
    2 ≤ st.size ∧ 2 ≤ next.size ∧ ∃ iac, mystrchr st.buff.mem st.iac IAC st.size = some iac ∧
      next = {st with iac := iac, size := st.size-(iac-st.iac)} := by
  unfold nextCommand at found
  split at found
  · contradiction
  · rename_i enough
    split at found
    · contradiction
    · rename_i iac located
      dsimp only at found
      split at found
      · contradiction
      · rename_i long
        cases found
        exact ⟨not_lt.mp enough,not_lt.mp long,iac,located,rfl⟩

theorem nextCommand_size {st next : Scan} (found : nextCommand st = some next) :
    next.size ≤ st.size ∧ 2 ≤ st.size ∧ next.session = st.session := by
  obtain ⟨enough,_,iac,located,rfl⟩ := nextCommand_found found
  have place := mystrchr_bounds located
  exact ⟨by dsimp only; omega,enough,rfl⟩

theorem scanNext_eq (st : Scan) :
    scanNext st = ((nextCommand st).map scanLoop).getD st.toGateway := by
  unfold scanNext nextCommand
  cases mystrchr st.buff.mem st.iac IAC st.size with
  | none => split <;> rfl
  | some iac =>
    dsimp only
    split
    · rfl
    · split <;> rfl

/-- The states in which the scan, entered at `st`, handles a command. -/
def commandsFrom (st : Scan) : List Scan :=
  st::match _found : nextCommand (scanCommand st) with
    | none => []
    | some next => commandsFrom next
termination_by st.size.toNat
decreasing_by
  have shorter := scanCommand_size st
  have bound := nextCommand_size _found
  omega

def commands (g : Gateway) : List Scan :=
  match nextCommand {g with iac := g.buff.writep, size := g.buff.nbuffered} with
  | none => []
  | some first => commandsFrom first

def readSocketCommands (reply : ReadReply) (g : Gateway) : List Scan :=
  let result := readFromFdToBuffer reply g.buff
  if result.ret ≤ 0 then []
  else
    match bfstrchr result.buff IAC with
    | none => []
    | some _ => commands {g with buff := result.buff}

/-- The session goes from `s` through the commands, one after the other, to `t`. -/
def Passes : Session → List Scan → Session → Prop
  | s,[],t => t = s
  | s,st::rest,t => st.session = s ∧ Passes (scanCommand st).session rest t

theorem commandsFrom_passes (st : Scan) :
    Passes st.session (commandsFrom st) (scanLoop st).session := by
  induction st using commandsFrom.induct with
  | case1 st ih =>
    rw [commandsFrom,scanLoop_eq,scanNext_eq]
    refine ⟨rfl,?_⟩
    split
    · rename_i last
      rw [last]
      rfl
    · rename_i next found
      rw [found,← (nextCommand_size found).2.2]
      exact ih next found

theorem commands_passes (g : Gateway) :
    Passes g.session (commands g) (processTelnetOptions g).session := by
  rw [processTelnetOptions_eq,scanNext_eq]
  unfold commands
  split
  · rename_i none
    rw [none]
    rfl
  · rename_i first found
    have same := (nextCommand_size found).2.2
    dsimp only at same
    rw [found,← same]
    exact commandsFrom_passes first

theorem readSocket_passes (reply : ReadReply) (g : Gateway) :
    Passes g.session (readSocketCommands reply g) (readSocket reply g).2.session := by
  unfold readSocketCommands
  dsimp only
  rcases readSocket_cases reply g with ⟨quiet,same,_⟩ | ⟨some,_,⟨none,same⟩ | ⟨⟨spot,found⟩,same⟩⟩
  · rw [same,if_pos quiet]
    rfl
  · rw [same,if_neg (not_le.mpr some),none]
    rfl
  · rw [same,if_neg (not_le.mpr some),found]
    exact commands_passes ⟨(readFromFdToBuffer reply g.buff).buff,g.session⟩

/-- A property that every command keeps holds before and after each of them. -/
theorem Passes.along {holds : Session → Prop} {s t : Session} {handled : List Scan}
    (passes : Passes s handled t)
    (kept : ∀ st : Scan, holds st.session → holds (scanCommand st).session) (start : holds s) :
    (∀ st ∈ handled, holds st.session) ∧ holds t := by
  induction handled generalizing s with
  | nil =>
    rw [passes]
    exact ⟨fun _ member => absurd member List.not_mem_nil,start⟩
  | cons st rest ih =>
    obtain ⟨rfl,further⟩ := passes
    obtain ⟨within,last⟩ := ih further (kept st start)
    refine ⟨?_,last⟩
    intro other member
    rcases List.mem_cons.mp member with rfl | later
    · exact start
    · exact within other later

/-- The last of WILL 44 and WONT 44 among the commands. -/
def lastConsent (commands : List (OptCode × UInt8)) : Option OptCode :=
  (commands.filter fun command => command = (.WILL,TELOPT_COM_PORT_OPTION) ∨
    command = (.WONT,TELOPT_COM_PORT_OPTION)).getLast?.map (·.1)

def Consented (s : Session) : Prop := lastConsent (calls s) = some .WILL

/-- Neither a terminal call was made, nor a suboption built for the client, nor one
of the client's dispatched. -/
structure Uncontrolled (s t : Session) : Prop where
  device : t.device = s.device
  optstr : t.optstr = s.optstr
  dispatches : dispatches t = dispatches s

theorem Uncontrolled.refl (s : Session) : Uncontrolled s s := ⟨rfl,rfl,rfl⟩

theorem Uncontrolled.trans {a b c : Session} (first : Uncontrolled a b) (second : Uncontrolled b c) :
    Uncontrolled a c :=
  ⟨second.device.trans first.device,second.optstr.trans first.optstr,
    second.dispatches.trans first.dispatches⟩

theorem writeSabre_uncontrolled (s : Session) : Uncontrolled s s.writeSabre.2 := by
  unfold writeSabre
  dsimp only
  split
  · exact Uncontrolled.refl s
  · exact ⟨rfl,rfl,rfl⟩

theorem appendToSabre_uncontrolled (bytes : List UInt8) (s : Session) :
    Uncontrolled s (s.appendToSabre bytes) := ⟨rfl,rfl,rfl⟩

theorem sendTelnetOption_uncontrolled (optcode : OptCode) (option : UInt8) (s : Session) :
    Uncontrolled s (sendTelnetOption optcode option s).2 := by
  apply sendTelnetOption_keeps (Uncontrolled s)
  · intro bytes t before
    exact before.trans (appendToSabre_uncontrolled bytes t)
  · intro t before
    exact before.trans (writeSabre_uncontrolled t)
  · intro t before
    have marked : Uncontrolled t (markTelnetOptionAsSent optcode option t) := by
      cases optcode <;> exact ⟨rfl,rfl,rfl⟩
    exact before.trans marked
  · exact Uncontrolled.refl s

theorem respondTelnetOption_uncontrolled (optcode : OptCode) (option : UInt8) (s : Session) :
    Uncontrolled s (respondTelnetOption optcode option s).2 := by
  have responds : Responds option (Uncontrolled s) := by
    refine ⟨?_,?_,?_,?_⟩
    · intro code t before
      exact before.trans (sendTelnetOption_uncontrolled code option t)
    · intro side value t before
      exact before.trans ⟨rfl,rfl,rfl⟩
    · intro side mode t before
      exact before.trans ⟨rfl,rfl,rfl⟩
    · intro t before
      exact before.trans ⟨rfl,rfl,rfl⟩
  apply responds.respond
  refine ⟨rfl,rfl,?_⟩
  simp [dispatches,notice]

/-- What a command does to the client flag of the Com-Port option. -/
theorem respondTelnetOption_consent (optcode : OptCode) (option : UInt8) (s : Session) :
    telnetClientOptionIsEnabled TELOPT_COM_PORT_OPTION (respondTelnetOption optcode option s).2 =
      if (optcode,option) = (.WILL,TELOPT_COM_PORT_OPTION) then true
      else if (optcode,option) = (.WONT,TELOPT_COM_PORT_OPTION) then false
      else telnetClientOptionIsEnabled TELOPT_COM_PORT_OPTION s := by
  unfold telnetClientOptionIsEnabled
  by_cases about : option = TELOPT_COM_PORT_OPTION
  · subst about
    have answer : (respondTelnetOption optcode TELOPT_COM_PORT_OPTION s).2 =
        (answerKnown optcode TELOPT_COM_PORT_OPTION
          (s.notice (.received optcode TELOPT_COM_PORT_OPTION))).2 := rfl
    have sent (t : Session) := (sendTelnetOption_marks optcode.reply TELOPT_COM_PORT_OPTION t).flags
      TELOPT_COM_PORT_OPTION .CLIENT
    rw [answer,answerKnown,answerTelnetOption_eq]
    split
    · rename_i settled
      cases optcode with
      | WILL | WONT => exact settled
      | DO | DONT => rfl
    · have turned (t : Session) := setFlag_flag optcode.side .CLIENT optcode.enables
        TELOPT_COM_PORT_OPTION TELOPT_COM_PORT_OPTION t
      refine (turned _).trans ?_
      rw [sent]
      cases optcode <;> rfl
  · have other (code : OptCode) : (optcode,option) ≠ (code,TELOPT_COM_PORT_OPTION) := by
      intro same
      exact about (Prod.mk.inj same).2
    rw [respondTelnetOption_elsewhere optcode (Ne.symm about),if_neg (other _),if_neg (other _)]

theorem lastConsent_concat (past : List (OptCode × UInt8)) (command : OptCode × UInt8) :
    lastConsent (past ++ [command]) =
      if command = (.WILL,TELOPT_COM_PORT_OPTION) then some .WILL
      else if command = (.WONT,TELOPT_COM_PORT_OPTION) then some .WONT
      else lastConsent past := by
  unfold lastConsent
  rw [List.filter_append,List.filter_singleton]
  split
  · rename_i given
    simp [given]
  · split
    · rename_i taken
      simp [taken]
    · rename_i other further
      simp [other,further]

/-- The guard of the scan is the consent of the client: its flag says what the
last of the two commands said. -/
structure Guards (device : SerialDevice) (s : Session) : Prop where
  flag : telnetClientOptionIsEnabled TELOPT_COM_PORT_OPTION s ↔ Consented s
  untouched : (OptCode.WILL,TELOPT_COM_PORT_OPTION) ∉ calls s → s.device = device

theorem lastConsent_mem {commands : List (OptCode × UInt8)} {optcode : OptCode}
    (said : lastConsent commands = some optcode) : (optcode,TELOPT_COM_PORT_OPTION) ∈ commands := by
  unfold lastConsent at said
  obtain ⟨command,last,rfl⟩ := Option.map_eq_some_iff.mp said
  have member := List.mem_of_getLast? last
  rw [List.mem_filter,decide_eq_true_eq] at member
  obtain ⟨present,rfl | rfl⟩ := member
  · exact present
  · exact present

theorem Guards.respond {device : SerialDevice} {s : Session} (guards : Guards device s)
    (optcode : OptCode) (option : UInt8) : Guards device (respondTelnetOption optcode option s).2 := by
  refine ⟨?_,?_⟩
  · unfold Consented
    rw [respondTelnetOption_consent,respondTelnetOption_calls,lastConsent_concat]
    split
    · exact iff_of_true rfl rfl
    · split
      · exact iff_of_false Bool.false_ne_true (by decide)
      · exact guards.flag
  · intro without
    rw [respondTelnetOption_calls,List.mem_append,not_or] at without
    exact (respondTelnetOption_uncontrolled optcode option s).device.trans (guards.untouched without.1)

theorem processTelnetCpcSuboption_tnoptions (mem : Block UInt8) (optstr optlen : Int)
    (s : Session) : (processTelnetCpcSuboption mem optstr optlen s).2.tnoptions = s.tnoptions := by
  rcases processTelnetCpcSuboption_cases mem optstr optlen s with same | ⟨command,suboptcode,text,same⟩
  · rw [same]
  · rw [same]
    exact (dispatchSuboption_answers _ _ _).tnoptions

theorem Guards.suboption {device : SerialDevice} {s : Session} (guards : Guards device s)
    (consented : Consented s) (mem : Block UInt8) (optstr optlen : Int) :
    Guards device (processTelnetCpcSuboption mem optstr optlen s).2 := by
  have called := processTelnetCpcSuboption_calls mem optstr optlen s
  refine ⟨?_,?_⟩
  · unfold Consented telnetClientOptionIsEnabled
    rw [called,processTelnetCpcSuboption_tnoptions]
    exact guards.flag
  · intro without
    rw [called] at without
    exact absurd (lastConsent_mem consented) without

/-- One command of the scan: without consent it controls nothing. -/
theorem scanCommand_guarded {device : SerialDevice} {st : Scan} (guards : Guards device st.session) :
    Guards device (scanCommand st).session ∧
      (¬Consented st.session → Uncontrolled st.session (scanCommand st).session) := by
  have answered (option : UInt8) : Guards device (answerSuboption st option) ∧
      (¬Consented st.session → Uncontrolled st.session (answerSuboption st option)) := by
    unfold answerSuboption
    split
    · rename_i guard
      have consented : Consented st.session := by
        have enabled := guard.2
        rw [guard.1] at enabled
        exact guards.flag.mp enabled
      exact ⟨guards.suboption consented _ _ _,fun without => absurd consented without⟩
    · exact ⟨guards,fun _ => Uncontrolled.refl _⟩
  rcases scanCommand_answers st with same | ⟨optcode,option,same⟩ | ⟨option,same⟩
  · rw [same]
    exact ⟨guards,fun _ => Uncontrolled.refl _⟩
  · rw [same]
    exact ⟨guards.respond optcode option,fun _ => respondTelnetOption_uncontrolled optcode option _⟩
  · rw [same]
    exact answered option

/-- What an event may do to the serial line. The commands read from the socket are
all that changes the session, and only those that come after consent touch the line;
going idle never does. -/
def ControlsConsented (g : Gateway) : ClientEvent → Prop
  | .readable reply answer =>
    Passes g.session (readSocketCommands reply g) (clientStep g (.readable reply answer)).session ∧
      ∀ st ∈ readSocketCommands reply g,
        ¬Consented st.session → Uncontrolled st.session (scanCommand st).session
  | .idle => Uncontrolled g.session (clientStep g .idle).session

theorem Guards.congr {device : SerialDevice} {s t : Session} (guards : Guards device s)
    (flag : (t.tnoptions TELOPT_COM_PORT_OPTION).client = (s.tnoptions TELOPT_COM_PORT_OPTION).client)
    (notices : t.notices = s.notices) (same : t.device = s.device) : Guards device t := by
  have called : calls t = calls s := by
    unfold calls
    rw [notices]
  refine ⟨?_,?_⟩
  · unfold Consented telnetClientOptionIsEnabled
    rw [called,flag]
    exact guards.flag
  · rw [called,same]
    exact guards.untouched

theorem Guards.send {device : SerialDevice} {s : Session} (guards : Guards device s)
    (optcode : OptCode) (option : UInt8) : Guards device (sendTelnetOption optcode option s).2 :=
  guards.congr ((sendTelnetOption_marks optcode option s).flags TELOPT_COM_PORT_OPTION .CLIENT)
    (sendTelnetOption_notices optcode option s) (sendTelnetOption_uncontrolled optcode option s).device

theorem Guards.start (s : Session) : Guards s.device (sessionStart {s with notices := []}) := by
  have init : Guards s.device (telnetInit {s with notices := [], sabre := bfmalloc SIZE_BUFFER}) := by
    apply telnetInit_keeps (Guards s.device)
    · intro optcode option t guards
      exact guards.send optcode option
    · have silent : ¬Consented (resetGlobals {s with notices := [], sabre := bfmalloc SIZE_BUFFER}) := by
        simp [Consented,calls,resetGlobals,lastConsent]
      exact ⟨iff_of_false Bool.false_ne_true silent,fun _ => rfl⟩
  exact init.congr rfl rfl rfl

theorem terminateIdle_uncontrolled (s : Session) : Uncontrolled s (terminateIdle s) :=
  ((appendToSabre_uncontrolled idleText s).trans (writeSabre_uncontrolled _)).trans
    (sendTelnetOption_uncontrolled _ _ _)

theorem Guards.terminateIdle {device : SerialDevice} {s : Session} (guards : Guards device s) :
    Guards device (terminateIdle s) := by
  have transmits := (appendToSabre_transmits idleText s).trans (writeSabre_transmits _)
  have told : Guards device (s.appendToSabre idleText).writeSabre.2 :=
    guards.congr (by rw [transmits.tnoptions]) transmits.notices
      ((appendToSabre_uncontrolled idleText s).trans (writeSabre_uncontrolled _)).device
  exact told.send .DO TELOPT_LOGOUT

theorem clientStep_guarded {device : SerialDevice} {g : Gateway} (guards : Guards device g.session)
    (event : ClientEvent) :
    Guards device (clientStep g event).session ∧ ControlsConsented g event := by
  cases event with
  | readable reply answer =>
    have passes := readSocket_passes reply g
    obtain ⟨within,last⟩ := passes.along (fun st guards => (scanCommand_guarded guards).1) guards
    rw [← socketToSerial_session_eq reply answer] at passes last
    exact ⟨last,passes,fun st member => (scanCommand_guarded (within st member)).2⟩
  | idle => exact ⟨guards.terminateIdle,terminateIdle_uncontrolled g.session⟩

/-- Over a whole session nothing controls the line or tells about it unless the last
WILL 44 or WONT 44 handled before was a WILL; without any the device stays as it is. -/
theorem remote_control_after_consent (s : Session) (buff : Buffer) (events : List ClientEvent) :
    let start := Gateway.mk buff (sessionStart {s with notices := []})
    Machine.Along clientStep ControlsConsented start events ∧
      ((OptCode.WILL,TELOPT_COM_PORT_OPTION) ∉ calls (Machine.run clientStep start events).session →
        (Machine.run clientStep start events).session.device = s.device) := by
  refine ⟨?_,?_⟩
  · exact Machine.along_invariant (fun g : Gateway => Guards s.device g.session)
      (fun g event guards => (clientStep_guarded guards event).1)
      (fun g event guards => (clientStep_guarded guards event).2) (Guards.start s) events
  · have guards := Machine.invariant_run (fun g : Gateway => Guards s.device g.session)
      (fun g event guards => (clientStep_guarded guards event).1)
      (show Guards s.device (Gateway.mk buff (sessionStart {s with notices := []})).session from
        Guards.start s) events
    exact guards.untouched

end SerialIp
