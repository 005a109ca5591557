import SerialIp.RemoteControl

/-! The command buffer of process_telnet_cpc_suboption: which of its cells the copy,
the final NUL and the loop that takes doubled IACs apart touch. -/
namespace SerialIp
open Library Buffer

/-- The length of the command as first computed, if the suboption passes the checks. -/
def suboptionLength (mem : Block UInt8) (optstr optlen : Int) : Option Int :=
  if optlen < 3 then none
  else
    match mystrchr mem (optstr+1) SE (optlen-1) with
    | none => none
    | some se =>
      if mem.cell (se-1) ≠ IAC then none
      else
        let len := se-1-(optstr+1)
        some (if len ≥ MAX_TELNET_CPC_COMMAND_LEN then MAX_TELNET_CPC_COMMAND_LEN-1 else len)

/-- The command after the copy and the final NUL. -/
def copiedCommand (mem : Block UInt8) (optstr len : Int) (command : Block UInt8) : Block UInt8 :=
  (command.copy 0 (mem.read (optstr+1) len.toNat)).store len 0

def closePairReads (command : Block UInt8) (iac len : Int) : List Int :=
  (iac+1)::if command.cell (iac+1) = IAC then Block.span (iac+2) (len-(iac+1)).toNat else []

def unescapeLoopReads (command : Block UInt8) (iac len : Int) : List Int :=
  closePairReads command iac len ++
    mystrchrReads (closePair command iac len).1 (iac+1) IAC ((closePair command iac len).2-(iac+1)) ++
    match _found : mystrchr (closePair command iac len).1 (iac+1) IAC
        ((closePair command iac len).2-(iac+1)) with
    | none => []
    | some next => unescapeLoopReads (closePair command iac len).1 next (closePair command iac len).2
termination_by (len-iac).toNat
decreasing_by
  have place := mystrchr_bounds _found
  have shorter := closePair_len command iac len
  omega

/-- The cells of the command that the unescape pass looks at. -/
def unescapeReads (command : Block UInt8) (len : Int) : List Int :=
  mystrchrReads command 0 IAC len ++
    match mystrchr command 0 IAC len with
    | none => []
    | some iac => unescapeLoopReads command iac len

theorem processTelnetCpcSuboption_eq (mem : Block UInt8) (optstr optlen : Int) (s : Session) :
    processTelnetCpcSuboption mem optstr optlen s =
      match suboptionLength mem optstr optlen with
      | none => (1,s)
      | some len =>
        let (command,len) := unescapeCommand (copiedCommand mem optstr len s.command) len
        let text := command.read 0 len.toNat
        dispatchSuboption (mem.cell optstr) (commandValue text) ({s with command := command}.notice
          (.suboption (mem.cell optstr) (commandValue text) text)) := by
  unfold processTelnetCpcSuboption suboptionLength
  by_cases short : optlen < 3
  · rw [if_pos short,if_pos short]
  · rw [if_neg short,if_neg short]
    dsimp only
    cases mystrchr mem (optstr+1) SE (optlen-1) with
    | none => rfl
    | some se =>
      dsimp only
      by_cases marked : mem.cell (se-1) ≠ IAC
      · rw [if_pos marked,if_pos marked]
      · rw [if_neg marked,if_neg marked]
        rfl

theorem closePair_inside (command : Block UInt8) {iac len : Int} (origin : 0 ≤ iac)
    (within : iac < len) (limit : len ≤ 255) :
    Block.Writes (fun i => 0 ≤ i ∧ i ≤ 255) command (closePair command iac len).1 ∧
      ∀ i ∈ closePairReads command iac len, 0 ≤ i ∧ i ≤ 255 := by
  unfold closePair closePairReads
  split
  · refine ⟨(Block.shiftLeft_writes _ _ _ _).mono fun i inside => by omega,fun i member => ?_⟩
    rcases List.mem_cons.mp member with rfl | moved
    · omega
    · rw [Block.mem_span] at moved
      omega
  · refine ⟨Block.Writes.refl _ _,fun i member => ?_⟩
    rw [List.mem_singleton] at member
    omega

theorem unescapeLoop_inside (command : Block UInt8) {iac len : Int} (origin : 0 ≤ iac)
    (within : iac < len) (limit : len ≤ 255) :
    Block.Writes (fun i => 0 ≤ i ∧ i ≤ 255) command (unescapeLoop command iac len).1 ∧
      ∀ i ∈ unescapeLoopReads command iac len, 0 ≤ i ∧ i ≤ 255 := by
  have shorter (command : Block UInt8) (iac len : Int) := closePair_len command iac len
  induction command, iac, len using unescapeLoop.induct with
  | case1 command iac len missing =>
    obtain ⟨writes,reads⟩ := closePair_inside command origin within limit
    have left := shorter command iac len
    rw [unescapeLoop,unescapeLoopReads,missing]
    refine ⟨writes,?_⟩
    rw [List.append_nil,List.forall_mem_append]
    refine ⟨reads,fun i searched => ?_⟩
    have bounds := mystrchrReads_bounds searched
    omega
  | case2 command iac len next found ih =>
    obtain ⟨writes,reads⟩ := closePair_inside command origin within limit
    have left := shorter command iac len
    have place := mystrchr_bounds found
    obtain ⟨further,later⟩ := ih (by omega) (by omega) (by omega)
    rw [unescapeLoop,unescapeLoopReads,found]
    refine ⟨writes.trans further,?_⟩
    rw [List.forall_mem_append,List.forall_mem_append]
    refine ⟨⟨reads,fun i searched => ?_⟩,later⟩
    have bounds := mystrchrReads_bounds searched
    omega

theorem unescapeCommand_inside (command : Block UInt8) {len : Int} (limit : len ≤ 255) :
    Block.Writes (fun i => 0 ≤ i ∧ i ≤ 255) command (unescapeCommand command len).1 ∧
      ∀ i ∈ unescapeReads command len, 0 ≤ i ∧ i ≤ 255 := by
  have searched (i : Int) (member : i ∈ mystrchrReads command 0 IAC len) : 0 ≤ i ∧ i ≤ 255 := by
    have bounds := mystrchrReads_bounds member
    omega
  unfold unescapeCommand unescapeReads
  rw [List.forall_mem_append]
  cases found : mystrchr command 0 IAC len with
  | none => exact ⟨Block.Writes.refl _ _,searched,fun _ member => absurd member List.not_mem_nil⟩
  | some iac =>
    have place := mystrchr_bounds found
    obtain ⟨writes,reads⟩ := unescapeLoop_inside command place.1 (by omega) limit
    exact ⟨writes,searched,reads⟩

/-- The loop takes the doubling back, within the array of 256 bytes. -/
theorem unescapeCommand_doubled (command : Block UInt8) (p : List UInt8)
    (fits : (stuff IAC p).length ≤ 255) (doubled : Terminated command (stuff IAC p)) :
    ∃ undoubled, unescapeCommand command (stuff IAC p).length = (undoubled,(p.length : Int)) ∧
      undoubled.read 0 p.length = p ∧ undoubled.cell p.length = 0 ∧
      Block.Writes (fun i => 0 ≤ i ∧ i ≤ 255) command undoubled ∧
      ∀ i ∈ unescapeReads command (stuff IAC p).length, 0 ≤ i ∧ i ≤ 255 := by
  obtain ⟨holds,length⟩ := unescapeCommand_holds doubled
  obtain ⟨writes,reads⟩ := unescapeCommand_inside command (Int.ofNat_le.mpr fits)
  rw [unstuff_stuff] at holds length
  exact ⟨_,Prod.ext rfl length,holds.read,holds.stop,writes,reads⟩

theorem unescapeCommand_doubled_pair : ∃ undoubled,
    unescapeCommand ((⟨fun _ => 0,[]⟩ : Block UInt8).copy 0 (stuff IAC [IAC,65,IAC] ++ [0]))
        (stuff IAC [IAC,65,IAC]).length = (undoubled,3) ∧
      undoubled.read 0 3 = [IAC,65,IAC] ∧ undoubled.cell 3 = 0 ∧
      Block.Writes (fun i => 0 ≤ i ∧ i ≤ 255)
        ((⟨fun _ => 0,[]⟩ : Block UInt8).copy 0 (stuff IAC [IAC,65,IAC] ++ [0])) undoubled ∧
      ∀ i ∈ unescapeReads ((⟨fun _ => 0,[]⟩ : Block UInt8).copy 0 (stuff IAC [IAC,65,IAC] ++ [0]))
        (stuff IAC [IAC,65,IAC]).length, 0 ≤ i ∧ i ≤ 255 :=
  unescapeCommand_doubled _ [IAC,65,IAC] (by decide) (Block.read_copy _ _ _)

/-- The length is that of what lies between the code and the IAC SE, cut at 255; it is
negative exactly when the code itself is that IAC. -/
theorem suboptionLength_bounds {mem : Block UInt8} {optstr optlen len : Int}
    (accepted : suboptionLength mem optstr optlen = some len) :
    len ≤ MAX_TELNET_CPC_COMMAND_LEN-1 ∧
      (0 ≤ len ∨ len = -1 ∧ mem.cell optstr = IAC ∧ mem.cell (optstr+1) = SE) := by
  unfold suboptionLength MAX_TELNET_CPC_COMMAND_LEN at accepted
  unfold MAX_TELNET_CPC_COMMAND_LEN
  split at accepted
  · contradiction
  · split at accepted
    · contradiction
    · rename_i se found
      obtain ⟨from_code,_,ends⟩ := mystrchr_bounds found
      split at accepted
      · contradiction
      · rename_i marked
        cases accepted
        refine ⟨by split_ifs <;> omega,?_⟩
        by_cases first : se = optstr+1
        · subst first
          have code : optstr+1-1 = optstr := by omega
          rw [code] at marked ⊢
          exact Or.inr ⟨by rw [if_neg (by omega)]; omega,not_not.mp marked,ends⟩
        · left
          split_ifs <;> omega

theorem suboptionLength_code {mem : Block UInt8} {optstr optlen : Int} (enough : 3 ≤ optlen)
    (code : mem.cell optstr = IAC) (ends : mem.cell (optstr+1) = SE) :
    suboptionLength mem optstr optlen = some (-1) := by
  have found : mystrchr mem (optstr+1) SE (optlen-1) = some (optstr+1) := by
    obtain ⟨size,count⟩ : ∃ size, (optlen-1).toNat = size+1 := ⟨(optlen-2).toNat,by omega⟩
    unfold mystrchr
    rw [count,mystrchrLoop,if_pos ends]
  have back : optstr+1-1 = optstr := by omega
  have length : optstr-(optstr+1) = -1 := by omega
  unfold suboptionLength
  rw [if_neg (not_lt.mpr enough),found]
  dsimp only
  rw [back,if_neg (not_not.mpr code),length,if_neg (by decide)]

theorem dispatchSuboption_command (suboptcode : UInt8) (value : Nat) (s : Session) :
    (dispatchSuboption suboptcode value s).2.command = s.command := by
  have survives : Survives fun t => t.command = s.command := by
    refine ⟨?_,fun _ _ same => same,fun _ _ same => same,fun _ _ same => same,fun _ _ same => same⟩
    intro suboptcode content t same
    have transmits := sendTelnetCpcSuboption_transmits suboptcode content t
    unfold Transmits at transmits
    rw [transmits]
    exact same
  exact survives.dispatch suboptcode value rfl

/-- What happens to the command while a suboption is processed: nothing, or the copy, the
final NUL and the unescape pass. -/
theorem processTelnetCpcSuboption_command (mem : Block UInt8) (optstr optlen : Int) (s : Session) :
    (processTelnetCpcSuboption mem optstr optlen s).2.command =
      match suboptionLength mem optstr optlen with
      | none => s.command
      | some len => (unescapeCommand (copiedCommand mem optstr len s.command) len).1 := by
  rw [processTelnetCpcSuboption_eq]
  cases suboptionLength mem optstr optlen with
  | none => rfl
  | some len => exact dispatchSuboption_command _ _ _

def commandBufferReads (mem : Block UInt8) (optstr optlen : Int) (s : Session) : List Int :=
  match suboptionLength mem optstr optlen with
  | none => []
  | some len => unescapeReads (copiedCommand mem optstr len s.command) len

/-- The length lies in the buffer and so does every cell that is stored or looked at. -/
structure CommandInside (mem : Block UInt8) (optstr optlen : Int) (s : Session) : Prop where
  length : ∀ len, suboptionLength mem optstr optlen = some len →
    0 ≤ len ∧ len ≤ MAX_TELNET_CPC_COMMAND_LEN-1
  stores : Block.Writes (fun i => 0 ≤ i ∧ i ≤ 255) s.command
    (processTelnetCpcSuboption mem optstr optlen s).2.command
  reads : ∀ i ∈ commandBufferReads mem optstr optlen s, 0 ≤ i ∧ i ≤ 255

theorem copiedCommand_writes (mem : Block UInt8) (optstr : Int) {len : Int} (origin : 0 ≤ len)
    (limit : len ≤ 255) (command : Block UInt8) :
    Block.Writes (fun i => 0 ≤ i ∧ i ≤ 255) command (copiedCommand mem optstr len command) := by
  apply Block.Writes.trans ((Block.copy_writes _ _ _).mono _) ((Block.store_writes _ _ _).mono _)
  · intro i inside
    rw [Block.read_length] at inside
    omega
  · intro i same
    omega

/-- The function stays inside its command buffer on every input except where the code of
the suboption is an IAC with SE right behind it. -/
theorem commandInside_iff (mem : Block UInt8) (optstr optlen : Int) (s : Session) :
    CommandInside mem optstr optlen s ↔
      ¬(3 ≤ optlen ∧ mem.cell optstr = IAC ∧ mem.cell (optstr+1) = SE) := by
  constructor
  · intro inside bad
    obtain ⟨enough,code,ends⟩ := bad
    have bounds := inside.length (-1) (suboptionLength_code enough code ends)
    omega
  · intro fine
    have length (len : Int) (accepted : suboptionLength mem optstr optlen = some len) :
        0 ≤ len ∧ len ≤ MAX_TELNET_CPC_COMMAND_LEN-1 := by
      obtain ⟨limit,origin | ⟨_,code,ends⟩⟩ := suboptionLength_bounds accepted
      · exact ⟨origin,limit⟩
      · have enough : 3 ≤ optlen := by
          by_contra short
          unfold suboptionLength at accepted
          rw [if_pos (not_le.mp short)] at accepted
          contradiction
        exact absurd ⟨enough,code,ends⟩ fine
    have touched : Block.Writes (fun i => 0 ≤ i ∧ i ≤ 255) s.command
        (processTelnetCpcSuboption mem optstr optlen s).2.command ∧
        ∀ i ∈ commandBufferReads mem optstr optlen s, 0 ≤ i ∧ i ≤ 255 := by
      rw [processTelnetCpcSuboption_command]
      unfold commandBufferReads
      cases accepted : suboptionLength mem optstr optlen with
      | none => exact ⟨Block.Writes.refl _ _,fun _ member => absurd member List.not_mem_nil⟩
      | some len =>
        obtain ⟨origin,limit⟩ := length len accepted
        obtain ⟨writes,reads⟩ := unescapeCommand_inside
          (copiedCommand mem optstr len s.command) limit
        exact ⟨(copiedCommand_writes mem optstr origin limit s.command).trans writes,reads⟩
    exact ⟨length,touched.1,touched.2⟩

/-- The client has announced Com Port Control and sends IAC SB 44 IAC SE x. -/
def codeIsIac : Scan where
  buff := (readFromFdToBuffer (.bytes [IAC,SB,44,IAC,SE,120]) (bfmalloc 16)).buff
  session := (respondTelnetOption .WILL 44 (processStart ⟨⟨0,0,0xBD,0⟩,[]⟩)).2
  iac := 0
  size := 6

theorem command_stored_before_start :
    codeIsIac ∈ commands codeIsIac.toGateway ∧
    (scanCommand codeIsIac).session.command.stores = [-1] ∧
    ¬CommandInside codeIsIac.buff.mem (codeIsIac.iac+3) (codeIsIac.size-3) codeIsIac.session := by
  refine ⟨?_,?_,?_⟩
  · have found : nextCommand {codeIsIac.toGateway with
        iac := codeIsIac.buff.writep, size := codeIsIac.buff.nbuffered} = some codeIsIac := rfl
    unfold commands
    rw [found]
    dsimp only
    rw [commandsFrom]
    exact List.mem_cons_self
  · decide
  · intro inside
    have bounds := inside.length (-1) (by decide)
    omega

end SerialIp
