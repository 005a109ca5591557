import Mathlib.Tactic.Abel
import SerialIp.Memory

/-! Which blocks the pointers of the listening process lead to, and what the start, the end
and a restart of the program take of them and leave. -/
namespace SerialIp.Memory
open Library Library.Heap

def fields : List StringField :=
  [.directory,.tmpdir,.lockdir,.locktemplate,.debuglog,.pidfile,.user,.group,.serverType]

def PortBlocks.blocks (port : PortBlocks) : Multiset Nat :=
  {port.info} + owned port.device + owned port.description + owned port.lockfile

namespace Held

def strings (held : Held) : Multiset Nat := (fields.map fun field => owned (held.text field)).sum

def portBlocks (held : Held) : Multiset Nat := (held.ports.map PortBlocks.blocks).sum

def blocks (held : Held) : Multiset Nat := held.strings + held.portBlocks

/-- What program_clean_up does not free. -/
def leftBehind (held : Held) : Multiset Nat :=
  owned (held.text .debuglog) + (held.ports.map fun port => owned port.description).sum

def Unlocked (held : Held) : Prop := ∀ port ∈ held.ports, port.lockfile = none

def Described (held : Held) : Prop := ∀ port ∈ held.ports, port.description ≠ none

end Held

section
variable {held : Held} {i : Nat}

theorem strings_update {field : StringField} (none : held.text field = none) (str : Pointer) :
    ({held with text := Function.update held.text field str} : Held).strings = held.strings + owned str := by
  unfold Held.strings fields
  cases field <;> simp [Function.update,none] <;> abel

theorem blocks_addPort (info : Nat) (device : Pointer) :
    (held.addPort info device).blocks = held.blocks + ({info} + owned device) := by
  unfold Held.blocks Held.portBlocks Held.addPort
  simp [PortBlocks.blocks,add_assoc]
  rfl

theorem sum_describe {ports : List PortBlocks} (inside : i < ports.length) (description : Pointer) :
    ((ports.modify i fun port => {port with description := description}).map PortBlocks.blocks).sum =
      ((ports.modify i fun port => {port with description := none}).map PortBlocks.blocks).sum +
        owned description := by
  induction ports generalizing i with
  | nil => exact absurd inside (Nat.not_lt_zero i)
  | cons port ports ih =>
    cases i with
    | zero =>
      simp [PortBlocks.blocks]
      abel
    | succ i =>
      have rest := ih (Nat.lt_of_succ_lt_succ inside)
      simp only [List.modify_succ_cons,List.map_cons,List.sum_cons,rest]
      abel

theorem blocks_describe (inside : i < held.ports.length) (description : Pointer) :
    (held.describe i description).blocks = (held.describe i none).blocks + owned description := by
  unfold Held.blocks
  rw [add_assoc]
  exact congrArg (held.strings + ·) (sum_describe inside description)

theorem describe_self {port : PortBlocks} (found : held.ports[i]? = some port) :
    held.describe i port.description = held := by
  obtain ⟨text,ports,concurrent⟩ := held
  refine congrArg (Held.mk text · concurrent) (List.ext_getElem? fun j => ?_)
  simp only [List.getElem?_modify]
  split
  · subst i
    rw [found]
    rfl
  · simp

end

section
variable {α β : Type} {held : Held} {allocs : List Bool} {left : Multiset Nat}

/-- A call that is given its own part. -/
theorem Carries.call {pre own k : Multiset Nat} {first : Allocating α} {second : α → Allocating β}
    {mid : α → Multiset Nat → Prop} {post : β → Multiset Nat → Prop} (carries : Carries own first mid)
    (same : pre = own + k)
    (rest : ∀ value left, mid value left → Carries (left + k) (second value) post) :
    Carries pre (first >>= second) post := by
  subst same
  refine (carries.beside k).bind fun value left reached => ?_
  obtain ⟨own,reached,rfl⟩ := reached
  exact rest value own reached

theorem carries_allocated (allocs : List Bool) : Carries 0 (allocated allocs) fun result left =>
    left = owned result.1 ∧ result.1.isSome = (allocate allocs).1 ∧ result.2 = (allocate allocs).2 := by
  refine Carries.bind (carries_malloc _) fun block left reached => .done ?_
  exact ⟨reached.1,reached.2,rfl⟩

theorem carries_saveString (field : StringField) (held : Held) (allocs : List Bool) :
    Carries held.blocks (saveString field held allocs) fun result left =>
      left = result.1.blocks ∧ result.1.ports = held.ports := by
  unfold saveString
  split
  · exact .done ⟨rfl,rfl⟩
  · rename_i none
    refine Carries.call (carries_allocated allocs) (zero_add _).symm fun result left reached => .done ⟨?_,rfl⟩
    rw [reached.1,Held.blocks,Held.blocks,strings_update none]
    change owned result.1 + (held.strings + held.portBlocks) = held.strings + owned result.1 + held.portBlocks
    abel

theorem carries_booleanStringHandle (allocs : List Bool) :
    Carries 0 (booleanStringHandle allocs) fun _ left => left = 0 := by
  refine Carries.bind (carries_allocated allocs) fun result left reached => ?_
  rw [reached.1]
  exact carries_release result.1

end

/-- What the reader has besides the blocks that it has lost. -/
structure Reader.Owns (plenty : Prop) (m : Reader) (left : Multiset Nat) : Prop where
  blocks : ∃ lost, left = m.held.blocks + owned m.description + lost ∧ (plenty → lost = 0)
  unlocked : m.held.Unlocked
  described : plenty → m.held.Described ∧ m.description ≠ none

section
variable {plenty : Prop} {m : Reader} {left : Multiset Nat}

theorem Held.mem_describe {held : Held} {i : Nat} {description : Pointer} {port : PortBlocks}
    (member : port ∈ (held.describe i description).ports) :
    ∃ old ∈ held.ports, port = old ∨ port = {old with description := description} := by
  obtain ⟨j,found⟩ := List.mem_iff_getElem?.mp member
  unfold Held.describe at found
  rw [List.getElem?_modify] at found
  obtain ⟨old,there,rfl⟩ := Option.map_eq_some_iff.mp found
  refine ⟨old,List.mem_of_getElem? there,?_⟩
  split
  · exact .inr rfl
  · exact .inl rfl

theorem Held.Unlocked.describe {held : Held} (unlocked : held.Unlocked) (i : Nat) (description : Pointer) :
    (held.describe i description).Unlocked := by
  intro port member
  obtain ⟨old,inside,rfl | rfl⟩ := Held.mem_describe member
  · exact unlocked _ inside
  · exact unlocked old inside

theorem Held.Described.describe {held : Held} (described : held.Described) (i : Nat) {description : Pointer}
    (some : description ≠ none) : (held.describe i description).Described := by
  intro port member
  obtain ⟨old,inside,rfl | rfl⟩ := Held.mem_describe member
  · exact described _ inside
  · exact some

theorem allocated_granted {result : Pointer × List Bool} {allocs : List Bool} (plenty : allocs = [])
    (reached : result.1.isSome = (allocate allocs).1 ∧ result.2 = (allocate allocs).2) :
    result.1 ≠ none ∧ result.2 = [] := by
  subst plenty
  exact ⟨fun none => by simp [none,allocate] at reached,reached.2⟩

theorem Reader.Owns.saveText (owns : m.Owns plenty left) (field : StringField) :
    Carries left (m.saveText field) (·.Owns plenty) := by
  obtain ⟨⟨lost,rfl,small⟩,unlocked,described⟩ := owns
  refine Carries.call (carries_saveString field m.held m.values.allocs) (add_assoc ..)
    fun result left reached => .done ?_
  obtain ⟨rfl,ports⟩ := reached
  refine ⟨⟨lost,(add_assoc ..).symm,small⟩,fun port member => ?_,fun enough => ⟨fun port member => ?_,?_⟩⟩
  · exact unlocked port (ports ▸ member)
  · exact (described enough).1 port (ports ▸ member)
  · exact (described enough).2

theorem Reader.Owns.saveBoolean (owns : m.Owns plenty left) :
    Carries left m.saveBoolean (·.Owns plenty) := by
  refine Carries.call (carries_booleanStringHandle _) (zero_add _).symm fun _ none reached => .done ?_
  subst reached
  rw [zero_add]
  exact owns

theorem Reader.Owns.saveDescription (owns : m.Owns plenty left) (granted : plenty → m.values.allocs = []) :
    Carries left m.saveDescription (·.Owns plenty) := by
  obtain ⟨⟨lost,rfl,small⟩,unlocked,described⟩ := owns
  unfold Reader.saveDescription
  split
  · refine Carries.call (k := m.held.blocks + lost) (carries_release m.description) (by abel)
      fun _ none reached => ?_
    subst reached
    refine Carries.call (carries_allocated _) rfl fun result left reached => .done ?_
    refine ⟨⟨lost,?_,small⟩,unlocked,fun enough => ⟨(described enough).1,?_⟩⟩
    · rw [reached.1]
      dsimp only
      abel
    · exact (allocated_granted (granted enough) reached.2).1
  · split
    · exact .done ⟨⟨lost,rfl,small⟩,unlocked,described⟩
    · rename_i i _ _ port found
      have inside : i < m.held.ports.length := (List.getElem?_eq_some_iff.mp found).1
      have now := blocks_describe inside port.description
      rw [describe_self found] at now
      refine Carries.call (k := (m.held.describe i none).blocks + owned m.description + lost)
        (carries_release port.description) (by rw [now]; abel) fun _ none reached => ?_
      subst reached
      refine Carries.call (carries_allocated _) rfl fun result left reached => .done ?_
      refine ⟨⟨lost,?_,small⟩,unlocked.describe i _,fun enough => ⟨?_,(described enough).2⟩⟩
      · rw [reached.1]
        dsimp only
        rw [blocks_describe inside result.1]
        abel
      · exact (described enough).1.describe i (allocated_granted (granted enough) reached.2).1

theorem describe_added {held : Held} {info i : Nat} {device copy : Pointer}
    (last : (held.addPort info device).ports.length = i + 1) :
    ((held.addPort info device).describe i copy).ports = held.ports ++ [⟨info,device,copy,none⟩] := by
  have place : i = held.ports.length := by simpa [Held.addPort,eq_comm] using last
  subst place
  exact modify_concat ..

/-- The description that the last port has is lost. A port that was just added has none. -/
theorem carries_copyDefaults {lost : Multiset Nat} (allocs : List Bool)
    (blocks : left = m.held.blocks + owned m.description + lost) (unlocked : m.held.Unlocked)
    (enough : plenty → lost = 0 ∧ m.description ≠ none ∧ allocs = [] ∧
      ∃ (held : Held) (info : Nat) (device : Pointer), held.Described ∧ m.held = held.addPort info device) :
    Carries left (m.copyDefaults allocs) (·.Owns plenty) := by
  subst blocks
  unfold Reader.copyDefaults
  split
  · rename_i i _ last _
    have inside : i < m.held.ports.length := last ▸ Nat.lt_succ_self i
    have now := blocks_describe inside (m.held.ports[i]).description
    rw [describe_self (List.getElem?_eq_getElem inside)] at now
    refine Carries.call (carries_allocated allocs) (zero_add _).symm fun result left reached => .done ?_
    refine ⟨⟨lost + owned (m.held.ports[i]).description,?_,fun met => ?_⟩,unlocked.describe i _,
      fun met => ?_⟩
    · rw [reached.1]
      dsimp only
      rw [now,blocks_describe inside result.1]
      abel
    · obtain ⟨none,_,_,held,info,device,_,same⟩ := enough met
      have place : i = held.ports.length := by simpa [same,Held.addPort,eq_comm] using last
      simp [none,same,Held.addPort,place]
    · obtain ⟨_,some,granted,held,info,device,described,same⟩ := enough met
      refine ⟨fun port member => ?_,some⟩
      dsimp only at member
      rw [same] at member last
      rw [describe_added last] at member
      obtain old | new := List.mem_append.mp member
      · exact described port old
      · rw [List.mem_singleton.mp new]
        exact (allocated_granted granted reached.2).1
  · rename_i other
    refine .done ⟨⟨lost,rfl,fun met => (enough met).1⟩,unlocked,fun met => ?_⟩
    obtain ⟨_,some,_,held,info,device,_,same⟩ := enough met
    obtain ⟨text,described⟩ := Option.ne_none_iff_exists'.mp some
    refine absurd described (other held.ports.length text ?_)
    simp [same,Held.addPort]

theorem Reader.Owns.saveDevice (owns : m.Owns plenty left) (granted : plenty → m.values.allocs = [])
    (path : List UInt8) : Carries left (m.saveDevice path) (·.Owns plenty) := by
  obtain ⟨⟨lost,rfl,small⟩,unlocked,described⟩ := owns
  unfold Reader.saveDevice
  split
  · exact .done ⟨⟨lost,rfl,small⟩,unlocked,described⟩
  split
  · exact .done ⟨⟨lost,rfl,small⟩,unlocked,described⟩
  refine Carries.call (carries_allocated _) (zero_add _).symm fun result left reached => ?_
  obtain ⟨rfl,outcome⟩ := reached
  obtain ⟨info,allocs⟩ := result
  cases info with
  | none =>
    refine carries_copyDefaults allocs (zero_add _) unlocked fun met => ?_
    exact absurd rfl (allocated_granted (granted met) outcome).1
  | some info =>
    refine Carries.call (carries_allocated _) (zero_add _).symm fun result left reached => ?_
    obtain ⟨rfl,answer⟩ := reached
    obtain ⟨device,allocs⟩ := result
    have free : (m.held.addPort info device).Unlocked := by
      intro port member
      obtain old | new := List.mem_append.mp member
      · exact unlocked port old
      · rw [List.mem_singleton.mp new]
    have same : owned device + (owned (some info) + (m.held.blocks + owned m.description + lost)) =
        (m.held.addPort info device).blocks + owned m.description + lost := by
      rw [blocks_addPort,owned_some]
      abel
    dsimp only
    split
    · refine .done ⟨⟨lost,same,small⟩,free,fun met => ?_⟩
      have known := allocated_granted (granted met) outcome
      exact absurd ‹_› (allocated_granted known.2 answer).1
    · refine carries_copyDefaults allocs same free fun met => ?_
      have known := allocated_granted (granted met) outcome
      exact ⟨small met,(described met).2,(allocated_granted known.2 answer).2,
        m.held,info,device,(described met).1,rfl⟩

theorem Reader.Owns.save (owns : m.Owns plenty left) (granted : plenty → m.values.allocs = [])
    (entry : ConfigEntry) : Carries left (m.save entry) (·.Owns plenty) := by
  unfold Reader.save
  split
  all_goals first
    | exact owns.saveText _
    | exact owns.saveDevice granted _
    | exact owns.saveDescription granted
    | exact owns.saveBoolean
    | exact .done owns

theorem serial_granted {entry : ConfigEntry} {save : Save SerialSettings} (acts : entry.action = .serial save)
    (s : SerialSettings) : (save s []).2.2 = [] := by
  obtain ⟨token,_,value⟩ := entry
  cases token with
  | DESCRIPTION | SPEED | DATABITS | STOPBITS =>
    obtain rfl := Action.serial.inj acts
    rfl
  | PARITY =>
    obtain rfl := Action.serial.inj acts
    rw [saveParity_eq]
    split <;> rfl
  | FLOWCONTROL =>
    obtain rfl := Action.serial.inj acts
    rw [saveFlowcontrol_eq]
    split <;> rfl
  | CONNFLUSH | DISCFLUSH =>
    obtain rfl := Action.serial.inj acts
    exact booleanStringHandle_allocs value
  | _ => contradiction

theorem device_granted {r : ConfigReader} (granted : r.allocs = []) (path : List UInt8) :
    (SerialIp.saveDevice path r).allocs = [] := by
  have added : (addSerialPortInfo r.conf path []).2.2 = [] := by
    unfold addSerialPortInfo
    split_ifs <;> rfl
  unfold SerialIp.saveDevice
  rw [granted]
  generalize addSerialPortInfo r.conf path [] = result at added ⊢
  obtain ⟨error,conf,allocs⟩ := result
  obtain rfl : allocs = [] := added
  dsimp only
  split
  · rfl
  · split <;> rfl

theorem readLine_granted {r : ConfigReader} (granted : r.allocs = []) (buffer : List UInt8) :
    (SerialIp.readLine r buffer).allocs = [] := by
  unfold SerialIp.readLine
  split
  · cases action : lineAction buffer with
    | skip => exact granted
    | string field value =>
      change (SerialIp.saveString value (r.conf.text field) r.allocs).2.2 = []
      rw [granted]
      cases r.conf.text field <;> rfl
    | number field save =>
      change (save (r.conf.number field) r.allocs).2.2 = []
      rw [granted]
      exact lineAction_number action _
    | serial save =>
      obtain ⟨entry,_,acts⟩ := lineAction_entry action nofun
      change (r.onSerialDevice save).allocs = []
      unfold ConfigReader.onSerialDevice
      rw [granted]
      split
      · exact serial_granted acts _
      · split
        · rfl
        · exact serial_granted acts _
    | device path => exact device_granted granted path
  · exact granted
  · exact granted

/-- What read_configuration_file has and knows before each line. -/
structure Reader.Underway (plenty : Prop) (m : Reader) (left : Multiset Nat) : Prop
    extends m.Owns plenty left where
  granted : plenty → m.values.allocs = []

theorem Reader.Underway.readLine (underway : m.Underway plenty left) (buffer : List UInt8) :
    Carries left (m.readLine buffer) fun after left =>
      after.Underway plenty left ∧ after.values = SerialIp.readLine m.values buffer := by
  have granted (met : plenty) := readLine_granted (underway.granted met) buffer
  unfold Reader.readLine
  split
  · refine (underway.toOwns.save underway.granted _).bind fun after left reached => .done ?_
    exact ⟨⟨⟨reached.blocks,reached.unlocked,reached.described⟩,granted⟩,rfl⟩
  · exact .done ⟨⟨⟨underway.blocks,underway.unlocked,underway.described⟩,granted⟩,rfl⟩

theorem Reader.Underway.readLines (underway : m.Underway plenty left) (lines : List (List UInt8)) :
    Carries left (lines.foldlM Reader.readLine m) fun after left =>
      after.Underway plenty left ∧ after.values = Machine.run SerialIp.readLine m.values lines := by
  induction lines generalizing m left with
  | nil => exact .done ⟨underway,rfl⟩
  | cons line lines ih =>
    refine (underway.readLine line).bind fun after left reached => ?_
    rw [Machine.run_cons,← reached.2]
    exact ih reached.1

theorem carries_readConfigurationFile (file : List UInt8) (allocs : List Bool) :
    Carries 0 (readConfigurationFile file allocs) fun m left =>
      m.Underway (allocs = []) left ∧
        m.values = SerialIp.readConfigurationFile file .initial allocs := by
  refine Carries.bind (carries_allocated allocs) fun result left reached => ?_
  have unheld : (⟨fun _ => none,[],false⟩ : Held).blocks = 0 := by simp [Held.blocks,Held.strings,Held.portBlocks,fields]
  refine Reader.Underway.readLines ⟨⟨⟨0,?_,fun _ => rfl⟩,fun _ member => absurd member List.not_mem_nil,
    fun met => ⟨fun _ member => absurd member List.not_mem_nil,?_⟩⟩,fun met => ?_⟩ _
  · rw [reached.1]
    dsimp only
    rw [unheld,zero_add,add_zero]
  · exact (allocated_granted met reached.2).1
  · rw [met]
    rfl

end

/-- What the process has after a start or a restart, besides the blocks that this has lost:
that of the defaults' description, and no other as long as there was memory. -/
structure Fresh (plenty : Prop) (held : Held) (left : Multiset Nat) : Prop where
  blocks : ∃ lost, left = held.blocks + lost ∧ (plenty → lost.card = 1)
  unlocked : held.Unlocked
  described : plenty → held.Described

section
variable {held : Held} {left : Multiset Nat}

theorem carries_saneConfig (held : Held) (allocs : List Bool) :
    Carries held.blocks (saneConfig held allocs) fun after left =>
      left = after.blocks ∧ after.ports = held.ports := by
  let filled (result : Held × List Bool) (left : Multiset Nat) : Prop :=
    left = result.1.blocks ∧ result.1.ports = held.ports
  refine Carries.bind (show Carries held.blocks _ filled from
    .foldlM (fun field result left reached => ?_) ⟨rfl,rfl⟩ _) fun result left reached => .done reached
  obtain ⟨rfl,same⟩ := reached
  refine (carries_saveString field result.1 result.2).mono fun after left reached => ?_
  exact ⟨reached.1,reached.2.trans same⟩

theorem serialIpInit_succeeds (g : Restart) : g.succeeds =
    match g.env.fopen (g.configFile.getD (ascii "/etc/serial_ip.conf")) with
    | none => false
    | some file =>
      let r := SerialIp.readConfigurationFile file .initial g.allocs
      decide (r.status = .reading) && (SerialIp.saneConfig g.env r.conf r.allocs).isSome := by
  unfold Restart.succeeds SerialIp.serialIpInit
  cases g.env.fopen (g.configFile.getD (ascii "/etc/serial_ip.conf")) with
  | none => rfl
  | some file =>
    dsimp only [Option.bind_eq_bind,Option.bind_some]
    by_cases reading : (SerialIp.readConfigurationFile file .initial g.allocs).status = .reading
    · simp [reading]
    · simp [reading]

theorem carries_serialIpInit (g : Restart) : Carries 0 (serialIpInit g) fun result left =>
    result.isSome = g.succeeds ∧ ∀ held ∈ result, Fresh (g.allocs = []) held left := by
  rw [serialIpInit_succeeds]
  unfold serialIpInit
  cases g.env.fopen (g.configFile.getD (ascii "/etc/serial_ip.conf")) with
  | none => exact .done ⟨rfl,nofun⟩
  | some file =>
    refine (carries_readConfigurationFile file g.allocs).bind fun m left reached => ?_
    obtain ⟨⟨⟨⟨lost,rfl,small⟩,unlocked,described⟩,_⟩,values⟩ := reached
    dsimp only
    rw [← values]
    split
    · rename_i reading
      refine Carries.call (carries_saneConfig m.held m.values.allocs) (add_assoc ..) fun held left reached => .done ?_
      obtain ⟨rfl,same⟩ := reached
      refine ⟨?_,fun after kept => ?_⟩
      · rw [decide_eq_true reading,Bool.true_and,Option.isSome_map]
      · obtain ⟨conf,_,rfl⟩ := Option.map_eq_some_iff.mp kept
        refine ⟨⟨_,rfl,fun met => ?_⟩,fun port member => unlocked port (same ▸ member),
          fun met port member => (described met).1 port (same ▸ member)⟩
        obtain ⟨block,there⟩ := Option.ne_none_iff_exists'.mp (described met).2
        simp [small met,there]
    · rename_i failed
      refine .done ⟨?_,nofun⟩
      simp [failed]

theorem carries_freeSerialPort (port : PortBlocks) :
    Carries port.blocks (freeSerialPort port) fun _ left => left = owned port.description := by
  refine Carries.call (k := {port.info} + owned port.description + owned port.lockfile)
    (carries_release port.device) (by unfold PortBlocks.blocks; abel) fun _ none reached => ?_
  subst reached
  refine Carries.call (k := {port.info} + owned port.description) (carries_release port.lockfile) (by abel)
    fun _ none reached => ?_
  subst reached
  rw [zero_add]
  refine ((carries_free port.info).beside _).mono fun _ left reached => ?_
  obtain ⟨_,rfl,rfl⟩ := reached
  exact zero_add _

theorem carries_programCleanUp (held : Held) :
    Carries held.blocks (programCleanUp held) fun _ left => left = held.leftBehind := by
  have strings : held.blocks = (freedFields.map fun field => owned (held.text field)).sum +
      (held.portBlocks + owned (held.text .debuglog)) := by
    simp only [Held.blocks,Held.strings,fields,freedFields,List.map_cons,List.map_nil,List.sum_cons,List.sum_nil]
    abel
  refine Carries.call (carries_forEach (k := fun _ => 0) fun field _ => carries_release (held.text field))
    strings fun _ none reached => ?_
  subst reached
  rw [List.sum_map_zero,zero_add]
  refine ((carries_forEach fun port _ => carries_freeSerialPort port).beside _).mono fun _ left reached => ?_
  obtain ⟨_,rfl,rfl⟩ := reached
  exact add_comm ..

theorem carries_actionSighup (g : Restart) (held : Held) :
    Carries held.blocks (actionSighup g held) fun result left =>
      result.isSome = g.succeeds ∧ ∀ after ∈ result, ∃ kept,
        Fresh (g.allocs = []) after kept ∧ left = kept + held.leftBehind := by
  refine (carries_programCleanUp held).bind fun _ left reached => ?_
  subst reached
  rw [← zero_add held.leftBehind]
  refine ((carries_serialIpInit g).beside held.leftBehind).mono fun result left reached => ?_
  obtain ⟨own,reached,rfl⟩ := reached
  exact ⟨reached.1,fun after kept => ⟨own,reached.2 after kept,by rw [zero_add]⟩⟩

end

end SerialIp.Memory
