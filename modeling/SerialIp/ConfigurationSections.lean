import SerialIp.Library.Sections
import SerialIp.ReadConfiguration

/-! The configuration file by its sections: the lines from one device line to the next
one are about that port, those before the first are the defaults of all ports. -/
namespace SerialIp
open Library Library.Sections

/-- What a line sets in the port it is about. -/
inductive PortSetting
  | description (text : List UInt8)
  | speed (value : Nat)
  | databits (value : Nat)
  | parity (value : Nat)
  | stopbits (value : Nat)
  | flowcontrol (value : Nat)
  | connFlush (value : Int)
  | discFlush (value : Int)

namespace PortSetting

def apply : PortSetting → SerialSettings → SerialSettings
  | description text,s => {s with description := some (.of text)}
  | speed value,s => {s with speed := value}
  | databits value,s => {s with databits := value}
  | parity value,s => {s with parity := value}
  | stopbits value,s => {s with stopbits := value}
  | flowcontrol value,s => {s with flowcontrol := value}
  | connFlush value,s => {s with connFlush := value}
  | discFlush value,s => {s with discFlush := value}

def description? : PortSetting → Option (Option Text)
  | description text => some (some (.of text))
  | _ => none

def speed? : PortSetting → Option Nat
  | speed value => some value
  | _ => none

def databits? : PortSetting → Option Nat
  | databits value => some value
  | _ => none

def parity? : PortSetting → Option Nat
  | parity value => some value
  | _ => none

def stopbits? : PortSetting → Option Nat
  | stopbits value => some value
  | _ => none

def flowcontrol? : PortSetting → Option Nat
  | flowcontrol value => some value
  | _ => none

def connFlush? : PortSetting → Option Int
  | connFlush value => some value
  | _ => none

def discFlush? : PortSetting → Option Int
  | discFlush value => some value
  | _ => none

end PortSetting

def parityValue (value : List UInt8) : Option Nat :=
  if strcaseeq value (ascii "none") then some PARITY_NONE
  else if strcaseeq value (ascii "odd") then some PARITY_ODD
  else if strcaseeq value (ascii "even") then some PARITY_EVEN
  else none

def flowcontrolValue (value : List UInt8) : Option Nat :=
  if strcaseeq value (ascii "hardware") || strcaseeq value (ascii "rts/cts") then some HARDWARE_FLOW
  else if strcaseeq value (ascii "software") || strcaseeq value (ascii "xon/xoff") then
    some SOFTWARE_FLOW
  else if strcaseeq value (ascii "none") then some NO_FLOWCONTROL
  else none

def ConfigEntry.setting (entry : ConfigEntry) : Option PortSetting :=
  match entry.token with
  | .DESCRIPTION => some (.description entry.value)
  | .SPEED => some (.speed (atol entry.value % 2 ^ 64).toNat)
  | .DATABITS => some (.databits (atoi entry.value % 2 ^ 32).toNat)
  | .PARITY => (parityValue entry.value).map .parity
  | .STOPBITS => some (.stopbits (atoi entry.value % 2 ^ 32).toNat)
  | .FLOWCONTROL => (flowcontrolValue entry.value).map .flowcontrol
  | .CONNFLUSH => some (.connFlush (booleanStringHandle entry.value []).1)
  | .DISCFLUSH => some (.discFlush (booleanStringHandle entry.value []).1)
  | _ => none

def lineSetting (buffer : List UInt8) : Option PortSetting :=
  match parseEntry (cString buffer) with
  | .ok entry => entry.setting
  | .error _ => none

/-- The path of a device line. -/
def lineDevice (buffer : List UInt8) : Option (List UInt8) :=
  match lineAction buffer with
  | .device path => some path
  | _ => none

def applyLine (buffer : List UInt8) (s : SerialSettings) : SerialSettings :=
  match lineSetting buffer with
  | some setting => setting.apply s
  | none => s

/-- The last of these lines that assigns the field. -/
def lastAssigned {β : Type} (field : PortSetting → Option β) (lines : List (List UInt8)) : Option β :=
  (lines.filterMap fun line => (lineSetting line).bind field).getLast?

/-- The last assignment of the port's own lines, else the last one before all ports, else
the default. -/
def assigned {β : Type} (field : PortSetting → Option β) (before own : List (List UInt8))
    (default : β) : β :=
  (lastAssigned field own).getD ((lastAssigned field before).getD default)

structure Scoped (before : List (List UInt8)) (part : List UInt8 × List (List UInt8))
    (port : ConfiguredPort) : Prop where
  device : port.device = some part.1
  description : port.description = assigned PortSetting.description? before part.2
    (some (.of (ascii "Sabre Lite Serial Interface")))
  speed : port.speed = assigned PortSetting.speed? before part.2 9600
  databits : port.databits = assigned PortSetting.databits? before part.2 8
  parity : port.parity = assigned PortSetting.parity? before part.2 PARITY_NONE
  stopbits : port.stopbits = assigned PortSetting.stopbits? before part.2 1
  flowcontrol : port.flowcontrol = assigned PortSetting.flowcontrol? before part.2 HARDWARE_FLOW
  connFlush : port.connFlush = assigned PortSetting.connFlush? before part.2 0
  discFlush : port.discFlush = assigned PortSetting.discFlush? before part.2 1

structure SerialSettings.Valid (s : SerialSettings) : Prop where
  speed : validSerialSpeed s.speed = true
  databits : s.databits ∈ [5,6,7,8]
  stopbits : s.stopbits ∈ [1,2]
  connFlush : s.connFlush ∈ [0,1]
  discFlush : s.discFlush ∈ [0,1]

def defaultSettings : SerialSettings :=
  ⟨some (.of (ascii "Sabre Lite Serial Interface")),9600,8,PARITY_NONE,1,HARDWARE_FLOW,0,1⟩

def portOf (entry : List UInt8 × SerialSettings) : ConfiguredPort :=
  {entry.2 with device := some entry.1}

theorem view_lines {β : Type} {view : SerialSettings → β} {field : PortSetting → Option β}
    (sets : ∀ setting s, view (PortSetting.apply setting s) = (field setting).getD (view s))
    (lines : List (List UInt8)) (s : SerialSettings) :
    view (applyAll applyLine lines s) = (lastAssigned field lines).getD (view s) := by
  refine view_applyAll view (fun line => (lineSetting line).bind field) ?_ lines s
  intro line s
  unfold applyLine
  cases lineSetting line with
  | none => rfl
  | some setting => exact sets setting s

theorem scoped_applyAll (before : List (List UInt8)) (part : List UInt8 × List (List UInt8)) :
    Scoped before part (portOf (part.1,applyAll applyLine part.2
      (applyAll applyLine before defaultSettings))) := by
  have both {β : Type} (view : SerialSettings → β) (field : PortSetting → Option β)
      (sets : ∀ setting s, view (PortSetting.apply setting s) = (field setting).getD (view s)) :
      view (applyAll applyLine part.2 (applyAll applyLine before defaultSettings)) =
        assigned field before part.2 (view defaultSettings) := by
    rw [view_lines sets,view_lines sets]
    rfl
  constructor
  · rfl
  · exact both SerialSettings.description _ fun setting s => by cases setting <;> rfl
  · exact both SerialSettings.speed _ fun setting s => by cases setting <;> rfl
  · exact both SerialSettings.databits _ fun setting s => by cases setting <;> rfl
  · exact both SerialSettings.parity _ fun setting s => by cases setting <;> rfl
  · exact both SerialSettings.stopbits _ fun setting s => by cases setting <;> rfl
  · exact both SerialSettings.flowcontrol _ fun setting s => by cases setting <;> rfl
  · exact both SerialSettings.connFlush _ fun setting s => by cases setting <;> rfl
  · exact both SerialSettings.discFlush _ fun setting s => by cases setting <;> rfl

/-- A line that is about a port and not in error sets one field to a value that passes
its check. -/
structure Sets (setting : PortSetting) (save : Save SerialSettings) (s : SerialSettings) : Prop where
  saved : save s [] = (false,setting.apply s,[])
  valid : s.Valid → (setting.apply s).Valid

theorem booleanStringHandle_valid {value : List UInt8} (valid : (booleanStringHandle value []).1 ≠ -1) :
    (booleanStringHandle value []).1 ∈ ([0,1] : List Int) := by
  unfold booleanStringHandle at valid ⊢
  dsimp only at valid ⊢
  split_ifs at valid ⊢ <;> simp_all

theorem booleanStringHandle_allocs (value : List UInt8) : (booleanStringHandle value []).2 = [] := by
  unfold booleanStringHandle
  dsimp only
  split_ifs <;> rfl

theorem saveSpeed_sets {value : List UInt8} {s : SerialSettings}
    (accepted : (saveSpeed value s []).1 = false) :
    Sets (.speed (atol value % 2 ^ 64).toNat) (saveSpeed value) s := by
  have passes : validSerialSpeed (atol value % 2 ^ 64).toNat = true := by
    simpa [saveSpeed,saveLong] using accepted
  exact ⟨Prod.ext accepted rfl,
    fun valid => ⟨passes,valid.databits,valid.stopbits,valid.connFlush,valid.discFlush⟩⟩

theorem saveDatabits_sets {value : List UInt8} {s : SerialSettings}
    (accepted : (saveDatabits value s []).1 = false) :
    Sets (.databits (atoi value % 2 ^ 32).toNat) (saveDatabits value) s := by
  have passes : (atoi value % 2 ^ 32).toNat ∈ [8,7,6,5] := not_not.mp (of_decide_eq_false accepted)
  refine ⟨Prod.ext accepted rfl,fun valid => ?_⟩
  refine ⟨valid.speed,?_,valid.stopbits,valid.connFlush,valid.discFlush⟩
  exact (List.reverse_perm [8,7,6,5]).mem_iff.mpr passes

theorem saveStopbits_sets {value : List UInt8} {s : SerialSettings}
    (accepted : (saveStopbits value s []).1 = false) :
    Sets (.stopbits (atoi value % 2 ^ 32).toNat) (saveStopbits value) s := by
  have passes : (atoi value % 2 ^ 32).toNat ∈ [1,2] := not_not.mp (of_decide_eq_false accepted)
  exact ⟨Prod.ext accepted rfl,
    fun valid => ⟨valid.speed,valid.databits,passes,valid.connFlush,valid.discFlush⟩⟩

theorem saveConnFlush_sets {value : List UInt8} {s : SerialSettings}
    (accepted : (saveConnFlush value s []).1 = false) :
    Sets (.connFlush (booleanStringHandle value []).1) (saveConnFlush value) s := by
  have passes : (booleanStringHandle value []).1 ≠ -1 := of_decide_eq_false accepted
  refine ⟨Prod.ext accepted (Prod.ext rfl (booleanStringHandle_allocs value)),fun valid => ?_⟩
  exact ⟨valid.speed,valid.databits,valid.stopbits,booleanStringHandle_valid passes,valid.discFlush⟩

theorem saveDiscFlush_sets {value : List UInt8} {s : SerialSettings}
    (accepted : (saveDiscFlush value s []).1 = false) :
    Sets (.discFlush (booleanStringHandle value []).1) (saveDiscFlush value) s := by
  have passes : (booleanStringHandle value []).1 ≠ -1 := of_decide_eq_false accepted
  refine ⟨Prod.ext accepted (Prod.ext rfl (booleanStringHandle_allocs value)),fun valid => ?_⟩
  exact ⟨valid.speed,valid.databits,valid.stopbits,valid.connFlush,booleanStringHandle_valid passes⟩

theorem saveParity_eq (value : List UInt8) (s : SerialSettings) :
    saveParity value s [] = match parityValue value with
      | some parity => (false,{s with parity := parity},[])
      | none => (true,s,[]) := by
  unfold saveParity parityValue
  cases strcaseeq value (ascii "none") <;> cases strcaseeq value (ascii "odd") <;>
    cases strcaseeq value (ascii "even") <;> rfl

theorem saveParity_sets {value : List UInt8} {s : SerialSettings}
    (accepted : (saveParity value s []).1 = false) :
    ∃ parity, parityValue value = some parity ∧ Sets (.parity parity) (saveParity value) s := by
  have saved := saveParity_eq value s
  cases chosen : parityValue value with
  | none =>
    rw [saved,chosen] at accepted
    contradiction
  | some parity =>
    rw [chosen] at saved
    refine ⟨parity,rfl,saved,fun valid => ?_⟩
    exact ⟨valid.speed,valid.databits,valid.stopbits,valid.connFlush,valid.discFlush⟩

theorem saveFlowcontrol_eq (value : List UInt8) (s : SerialSettings) :
    saveFlowcontrol value s [] = match flowcontrolValue value with
      | some flowcontrol => (false,{s with flowcontrol := flowcontrol},[])
      | none => (true,s,[]) := by
  unfold saveFlowcontrol flowcontrolValue
  cases strcaseeq value (ascii "hardware") <;> cases strcaseeq value (ascii "rts/cts") <;>
    cases strcaseeq value (ascii "software") <;> cases strcaseeq value (ascii "xon/xoff") <;>
    cases strcaseeq value (ascii "none") <;> rfl

theorem saveFlowcontrol_sets {value : List UInt8} {s : SerialSettings}
    (accepted : (saveFlowcontrol value s []).1 = false) :
    ∃ flowcontrol, flowcontrolValue value = some flowcontrol ∧
      Sets (.flowcontrol flowcontrol) (saveFlowcontrol value) s := by
  have saved := saveFlowcontrol_eq value s
  cases chosen : flowcontrolValue value with
  | none =>
    rw [saved,chosen] at accepted
    contradiction
  | some flowcontrol =>
    rw [chosen] at saved
    refine ⟨flowcontrol,rfl,saved,fun valid => ?_⟩
    exact ⟨valid.speed,valid.databits,valid.stopbits,valid.connFlush,valid.discFlush⟩

/-- Each case about a port that finds no error sets what the line says. -/
theorem action_sets {entry : ConfigEntry} {save : Save SerialSettings} {s : SerialSettings}
    (acts : entry.action = .serial save) (accepted : (save s []).1 = false) :
    ∃ setting, entry.setting = some setting ∧ Sets setting save s := by
  obtain ⟨token,_,value⟩ := entry
  cases token with
  | DESCRIPTION =>
    obtain rfl := Action.serial.inj acts
    refine ⟨_,rfl,rfl,fun valid => ?_⟩
    exact ⟨valid.speed,valid.databits,valid.stopbits,valid.connFlush,valid.discFlush⟩
  | SPEED =>
    obtain rfl := Action.serial.inj acts
    exact ⟨_,rfl,saveSpeed_sets accepted⟩
  | DATABITS =>
    obtain rfl := Action.serial.inj acts
    exact ⟨_,rfl,saveDatabits_sets accepted⟩
  | PARITY =>
    obtain rfl := Action.serial.inj acts
    obtain ⟨parity,same,sets⟩ := saveParity_sets accepted
    exact ⟨_,congrArg (Option.map PortSetting.parity) same,sets⟩
  | STOPBITS =>
    obtain rfl := Action.serial.inj acts
    exact ⟨_,rfl,saveStopbits_sets accepted⟩
  | FLOWCONTROL =>
    obtain rfl := Action.serial.inj acts
    obtain ⟨flowcontrol,same,sets⟩ := saveFlowcontrol_sets accepted
    exact ⟨_,congrArg (Option.map PortSetting.flowcontrol) same,sets⟩
  | CONNFLUSH =>
    obtain rfl := Action.serial.inj acts
    exact ⟨_,rfl,saveConnFlush_sets accepted⟩
  | DISCFLUSH =>
    obtain rfl := Action.serial.inj acts
    exact ⟨_,rfl,saveDiscFlush_sets accepted⟩
  | _ => contradiction

theorem setting_none {entry : ConfigEntry} (other : ∀ save, entry.action ≠ .serial save) :
    entry.setting = none := by
  obtain ⟨token,_,value⟩ := entry
  cases token with
  | DESCRIPTION | SPEED | DATABITS | PARITY | STOPBITS | FLOWCONTROL | CONNFLUSH | DISCFLUSH =>
    exact absurd rfl (other _)
  | _ => rfl

/-- The reader and the outline of what it has read. -/
structure Tracks (r : ConfigReader) (o : Outline (List UInt8) SerialSettings) : Prop where
  allocs : r.allocs = []
  defaults : r.defaults = o.defaults
  described : ∃ text, o.defaults.description = some (.of text)
  serialDevice : r.serialDevice = o.current.map fun _ => o.closed.length
  ports : r.conf.ports = o.entries.map portOf
  few : r.conf.ports.length ≤ MAX_SPORTS
  valid : o.defaults.Valid ∧ ∀ entry ∈ o.entries, entry.2.Valid

section
variable {r : ConfigReader} {o : Outline (List UInt8) SerialSettings}

theorem PortSetting.apply_described (setting : PortSetting) {s : SerialSettings}
    (described : ∃ text, s.description = some (.of text)) :
    ∃ text, (setting.apply s).description = some (.of text) := by
  cases setting with
  | description text => exact ⟨text,rfl⟩
  | _ => exact described

/-- The line says what the store sets, where it finds no error. -/
def LineSets (line : List UInt8) (save : Save SerialSettings) : Prop :=
  ∀ s, (save s []).1 = false → ∃ setting, lineSetting line = some setting ∧ Sets setting save s

theorem Tracks.congr {t : ConfigReader} (tracks : Tracks r o) (allocs : t.allocs = [])
    (defaults : t.defaults = r.defaults) (serialDevice : t.serialDevice = r.serialDevice)
    (ports : t.conf.ports = r.conf.ports) : Tracks t o := by
  refine ⟨allocs,defaults.trans tracks.defaults,tracks.described,
    serialDevice.trans tracks.serialDevice,ports.trans tracks.ports,?_,tracks.valid⟩
  rw [ports]
  exact tracks.few

theorem applyLine_setting {line : List UInt8} {setting : PortSetting}
    (found : lineSetting line = some setting) (s : SerialSettings) :
    applyLine line s = setting.apply s := by
  unfold applyLine
  rw [found]

theorem Tracks.setDefaults {save : Save SerialSettings} {line : List UInt8} (tracks : Tracks r o)
    (item : lineDevice line = none) (unopened : o.current = none)
    (sets : LineSets line save)
    (after : (r.onSerialDevice save).status = .reading) :
    Tracks (r.onSerialDevice save) (o.step lineDevice applyLine line) := by
  have points : r.serialDevice = none := by rw [tracks.serialDevice,unopened]; rfl
  rw [r.onSerialDevice_defaults save points,tracks.allocs,tracks.defaults] at after ⊢
  obtain ⟨setting,found,saved,valid⟩ := sets o.defaults (Status.of_reading after)
  rw [step_defaults item unopened,saved,applyLine_setting found]
  exact ⟨rfl,rfl,setting.apply_described tracks.described,tracks.serialDevice,tracks.ports,tracks.few,
    valid tracks.valid.1,tracks.valid.2⟩

theorem Tracks.setPort {save : Save SerialSettings} {line h : List UInt8} {s : SerialSettings}
    (tracks : Tracks r o) (item : lineDevice line = none) (opened : o.current = some (h,s))
    (sets : LineSets line save)
    (after : (r.onSerialDevice save).status = .reading) :
    Tracks (r.onSerialDevice save) (o.step lineDevice applyLine line) := by
  have points : r.serialDevice = some o.closed.length := by rw [tracks.serialDevice,opened]; rfl
  have ports : r.conf.ports = o.closed.map portOf ++ [portOf (h,s)] := by
    rw [tracks.ports,Outline.entries,opened,List.map_append]
    rfl
  have last : r.conf.ports[o.closed.length]? = some (portOf (h,s)) := by
    rw [ports]
    simp
  rw [r.onSerialDevice_port save points last,tracks.allocs] at after ⊢
  obtain ⟨setting,found,saved,valid⟩ := sets s (Status.of_reading after)
  have stored : save (portOf (h,s)).toSerialSettings [] = (false,setting.apply s,[]) := saved
  rw [step_current item opened,stored,applyLine_setting found]
  refine ⟨rfl,tracks.defaults,tracks.described,?_,?_,?_,tracks.valid.1,?_⟩
  · exact points
  · dsimp only
    rw [ports,Outline.entries,List.map_append,← List.length_map portOf,
      List.set_append_right _ _ (Nat.le_refl _),Nat.sub_self]
    rfl
  · rw [List.length_set]
    exact tracks.few
  · intro entry member
    have old := tracks.valid.2
    rw [Outline.entries,opened] at old
    rcases List.mem_append.mp member with inside | new
    · exact old entry (List.mem_append_left _ inside)
    · obtain rfl := List.mem_singleton.mp new
      exact valid (old (h,s) (List.mem_append_right _ List.mem_cons_self))

theorem modify_concat {α : Type} (xs : List α) (x : α) (change : α → α) :
    (xs ++ [x]).modify xs.length change = xs ++ [change x] := by
  induction xs with
  | nil => rfl
  | cons y xs ih => exact congrArg (y::·) ih

theorem addSerialPortInfo_granted {conf conf' : Config} {path : List UInt8} {allocs : List Bool}
    (adds : addSerialPortInfo conf path [] = (false,conf',allocs)) :
    conf.ports.length < MAX_SPORTS ∧ allocs = [] ∧
      conf' = {conf with ports := conf.ports ++ [{allocSerialPort with device := some path}]} := by
  unfold addSerialPortInfo at adds
  split_ifs at adds with blank full
  · cases adds
  · cases adds
  · cases adds
    exact ⟨Nat.not_le.mp full,rfl,rfl⟩

theorem saveDevice_granted {path : List UInt8} {text : List UInt8} (granted : r.allocs = [])
    (described : r.defaults.description = some (.of text))
    (after : (saveDevice path r).status = .reading) :
    r.conf.ports.length < MAX_SPORTS ∧ saveDevice path r = {r with
      conf := {r.conf with ports := r.conf.ports ++ [portOf (path,r.defaults)]}
      serialDevice := some r.conf.ports.length} := by
  obtain ⟨conf,⟨_,_,_,_,_,_,_,_⟩,_,_,_⟩ := r
  cases granted
  cases described
  unfold saveDevice at after ⊢
  dsimp only at after ⊢
  generalize adds : addSerialPortInfo conf path [] = result at after ⊢
  obtain ⟨error,added,allocs⟩ := result
  cases error with
  | true => contradiction
  | false =>
    obtain ⟨few,rfl,rfl⟩ := addSerialPortInfo_granted adds
    refine ⟨few,?_⟩
    dsimp only
    rw [if_neg nofun,List.length_append,List.length_singleton]
    dsimp only
    rw [modify_concat]
    rfl

theorem Tracks.saveDevice {path line : List UInt8} (tracks : Tracks r o)
    (found : lineDevice line = some path) (after : (saveDevice path r).status = .reading) :
    Tracks (saveDevice path r) (o.step lineDevice applyLine line) := by
  obtain ⟨text,described⟩ := tracks.described
  obtain ⟨few,saved⟩ := saveDevice_granted tracks.allocs (tracks.defaults ▸ described) after
  rw [saved,step_header found]
  refine ⟨tracks.allocs,tracks.defaults,tracks.described,?_,?_,?_,tracks.valid.1,?_⟩
  · dsimp only
    rw [tracks.ports,List.length_map]
    rfl
  · dsimp only
    rw [tracks.ports,tracks.defaults]
    change o.entries.map portOf ++ _ = (o.entries ++ [(path,o.defaults)]).map portOf
    rw [List.map_append]
    rfl
  · rw [List.length_append]
    exact few
  · intro entry member
    rcases List.mem_append.mp member with old | new
    · exact tracks.valid.2 entry old
    · obtain rfl := List.mem_singleton.mp new
      exact tracks.valid.1

theorem lineAction_sets {line : List UInt8} {save : Save SerialSettings}
    (acts : lineAction line = .serial save) : LineSets line save := by
  intro s accepted
  obtain ⟨entry,parsed,acts⟩ := lineAction_entry acts nofun
  unfold lineSetting
  rw [parsed]
  exact action_sets acts accepted

theorem lineSetting_none {line : List UInt8} (other : ∀ save, lineAction line ≠ .serial save) :
    lineSetting line = none := by
  unfold lineAction at other
  unfold lineSetting
  cases parsed : parseEntry (cString line) with
  | error token => rfl
  | ok entry =>
    rw [parsed] at other
    exact setting_none other

theorem lineDevice_some {line path : List UInt8} :
    lineDevice line = some path ↔ lineAction line = .device path := by
  unfold lineDevice
  cases lineAction line <;> simp

theorem lineDevice_none {line : List UInt8} (other : ∀ path, lineAction line ≠ .device path) :
    lineDevice line = none := by
  unfold lineDevice
  split
  · exact absurd ‹_› (other _)
  · rfl

theorem lineAction_number {line : List UInt8} {field : NumberField} {save : Save Int}
    (acts : lineAction line = .number field save) (i : Int) : (save i []).2.2 = [] := by
  obtain ⟨⟨token,_,value⟩,_,acts⟩ := lineAction_entry acts nofun
  cases token with
  | DEBUGLEVEL | TIMEOUT | MS_POLLINTERVAL | LS_POLLINTERVAL | IDLETIMER =>
    obtain ⟨rfl,rfl⟩ := Action.number.inj acts
    rfl
  | REPLYPURGEDATA | SENDLOGOUT =>
    obtain ⟨rfl,rfl⟩ := Action.number.inj acts
    exact booleanStringHandle_allocs value
  | _ => contradiction

/-- A line that is about no port leaves the outline as it is. -/
theorem step_quiet {line : List UInt8} (item : lineDevice line = none)
    (quiet : lineSetting line = none) : o.step lineDevice applyLine line = o := by
  have same (s : SerialSettings) : applyLine line s = s := by
    unfold applyLine
    rw [quiet]
  obtain ⟨d,closed,current⟩ := o
  cases current with
  | none => rw [step_defaults item rfl,same]
  | some entry => rw [step_current item rfl,same]

theorem Tracks.step {line : List UInt8} (tracks : Tracks r o)
    (after : (readLine r line).status = .reading) :
    Tracks (readLine r line) (o.step lineDevice applyLine line) := by
  have turn : readLine r line = r.act (lineAction line) :=
    ConfigReader.readLine_act (ConfigReader.reading_before after)
  rw [turn] at after ⊢
  have quiet (about : ∀ path, lineAction line ≠ .device path)
      (other : ∀ save, lineAction line ≠ .serial save) : o.step lineDevice applyLine line = o :=
    step_quiet (lineDevice_none about) (lineSetting_none other)
  cases action : lineAction line with
  | skip =>
    rw [quiet (by simp [action]) (by simp [action])]
    exact tracks
  | string field value =>
    rw [quiet (by simp [action]) (by simp [action])]
    refine tracks.congr ?_ rfl rfl rfl
    change (saveString value (r.conf.text field) r.allocs).2.2 = []
    rw [tracks.allocs]
    cases r.conf.text field <;> rfl
  | number field save =>
    rw [quiet (by simp [action]) (by simp [action])]
    refine tracks.congr ?_ rfl rfl rfl
    change (save (r.conf.number field) r.allocs).2.2 = []
    rw [tracks.allocs]
    exact lineAction_number action _
  | serial save =>
    rw [action] at after
    have item : lineDevice line = none := lineDevice_none (by simp [action])
    cases opened : o.current with
    | none => exact tracks.setDefaults item opened (lineAction_sets action) after
    | some entry => exact tracks.setPort item opened (lineAction_sets action) after
  | device path =>
    rw [action] at after
    exact tracks.saveDevice (lineDevice_some.mpr action) after

end

theorem tracks_run (lines : List (List UInt8)) :
    (Machine.run readLine (.start .initial []) lines).status = .reading →
      Tracks (Machine.run readLine (.start .initial []) lines)
        (Machine.run (Outline.step lineDevice applyLine) (.start defaultSettings) lines) := by
  induction lines using List.reverseRecOn with
  | nil =>
    intro _
    refine ⟨rfl,rfl,⟨_,rfl⟩,rfl,rfl,Nat.zero_le _,?_,nofun⟩
    exact ⟨by decide,by decide,by decide,by decide,by decide⟩
  | append_singleton lines line ih =>
    rw [Machine.run_concat,Machine.run_concat]
    intro after
    exact (ih (ConfigReader.reading_before after)).step after

/-- In every configuration file that is accepted, the ports are those of the device lines
in their order, each port has what the last line of its own section assigns, else the
last line before all sections, else the default, and every value is one that is allowed. -/
theorem ports_by_section (file : List UInt8)
    (accepted : (readConfigurationFile file .initial []).status = .reading) :
    List.Forall₂ (Scoped (preamble lineDevice (fgetsLines file)))
        (sections lineDevice (fgetsLines file)) (readConfigurationFile file .initial []).conf.ports ∧
      (readConfigurationFile file .initial []).conf.ports.length =
        (fgetsLines file).countP (fun line => (lineDevice line).isSome) ∧
      (readConfigurationFile file .initial []).conf.ports.length ≤ MAX_SPORTS ∧
      ∀ port ∈ (readConfigurationFile file .initial []).conf.ports, port.Valid := by
  have tracks := tracks_run (fgetsLines file) accepted
  have entries : (Machine.run (Outline.step lineDevice applyLine) (.start defaultSettings)
      (fgetsLines file)).entries = _ := run_start _ _
  obtain ⟨_,_,_,_,ports,few,_,valid⟩ := tracks
  unfold readConfigurationFile
  rw [entries] at ports valid
  refine ⟨?_,?_,few,?_⟩
  · rw [ports,List.map_map,List.forall₂_map_right_iff]
    exact List.forall₂_same.mpr fun part _ => scoped_applyAll _ part
  · rw [ports,List.length_map,List.length_map,length_sections]
  · rw [ports]
    intro port member
    obtain ⟨entry,inside,rfl⟩ := List.mem_map.mp member
    exact valid entry inside

def twoPorts : List UInt8 :=
  ascii "speed = 19200\nport = /dev/ttyS0\nspeed = 300\nparity = Even\nport = /dev/ttyS1\n"

theorem ports_by_section_twoPorts :
    List.Forall₂ (Scoped (preamble lineDevice (fgetsLines twoPorts)))
        (sections lineDevice (fgetsLines twoPorts))
        (readConfigurationFile twoPorts .initial []).conf.ports ∧
      (readConfigurationFile twoPorts .initial []).conf.ports.length =
        (fgetsLines twoPorts).countP (fun line => (lineDevice line).isSome) ∧
      (readConfigurationFile twoPorts .initial []).conf.ports.length ≤ MAX_SPORTS ∧
      ∀ port ∈ (readConfigurationFile twoPorts .initial []).conf.ports, port.Valid :=
  ports_by_section twoPorts rfl

end SerialIp
