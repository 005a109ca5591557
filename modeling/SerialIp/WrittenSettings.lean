import SerialIp.WrittenLines

/-! The settings that a line can give to the whole program or to a port, and what the
reader has once it has read a line for each of them. -/
namespace SerialIp
open Library

def StringField.token : StringField → Token
  | .directory => .DIRECTORY
  | .tmpdir => .TMPDIR
  | .lockdir => .LOCKDIR
  | .locktemplate => .LOCKTEMPLATE
  | .debuglog => .DEBUGLOG
  | .pidfile => .PIDFILE
  | .user => .USERNAME
  | .group => .GROUP
  | .serverType => .SERVERTYPE

def NumberField.token : NumberField → Token
  | .debuglevel => .DEBUGLEVEL
  | .timeout => .TIMEOUT
  | .msPollinterval => .MS_POLLINTERVAL
  | .lsPollinterval => .LS_POLLINTERVAL
  | .replyPurgeData => .REPLYPURGEDATA
  | .idletimer => .IDLETIMER
  | .sendLogout => .SENDLOGOUT

def NumberField.Flag (field : NumberField) : Prop := field = .replyPurgeData ∨ field = .sendLogout

instance (field : NumberField) : Decidable field.Flag := inferInstanceAs (Decidable (_ ∨ _))

/-- What a line sets for the whole program. -/
inductive GeneralSetting
  | string (field : StringField) (text : List UInt8)
  | number (field : NumberField) (n : Int)

namespace GeneralSetting

def token : GeneralSetting → Token
  | string field _ => field.token
  | number field _ => field.token

def Spelled : GeneralSetting → List UInt8 → Prop
  | string _ text,value => value = text
  | number field n,value => if field.Flag then Named booleanNames n value else value = numeral n

instance : (setting : GeneralSetting) → (value : List UInt8) → Decidable (setting.Spelled value)
  | string _ text,value => inferInstanceAs (Decidable (value = text))
  | number field n,value =>
    inferInstanceAs (Decidable (if field.Flag then Named booleanNames n value else value = numeral n))

def Given (setting : GeneralSetting) (line : List UInt8) : Prop :=
  ∃ value, setting.Spelled value ∧ Gives setting.token value line

def Holds : GeneralSetting → Config → Prop
  | string field text,conf => conf.text field = some (.of text)
  | number field n,conf => conf.number field = n

end GeneralSetting

namespace PortSetting

def token : PortSetting → Token
  | description _ => .DESCRIPTION
  | speed _ => .SPEED
  | databits _ => .DATABITS
  | parity _ => .PARITY
  | stopbits _ => .STOPBITS
  | flowcontrol _ => .FLOWCONTROL
  | connFlush _ => .CONNFLUSH
  | discFlush _ => .DISCFLUSH

def Spelled : PortSetting → List UInt8 → Prop
  | description text,value => value = text
  | speed n,value | databits n,value | stopbits n,value => value = numeral n
  | parity n,value => Named parityNames n value
  | flowcontrol n,value => Named flowcontrolNames n value
  | connFlush n,value | discFlush n,value => Named booleanNames n value

instance : (setting : PortSetting) → (value : List UInt8) → Decidable (setting.Spelled value)
  | description text,value => inferInstanceAs (Decidable (value = text))
  | speed n,value | databits n,value | stopbits n,value => inferInstanceAs (Decidable (value = numeral n))
  | parity n,value => inferInstanceAs (Decidable (Named parityNames n value))
  | flowcontrol n,value => inferInstanceAs (Decidable (Named flowcontrolNames n value))
  | connFlush n,value | discFlush n,value => inferInstanceAs (Decidable (Named booleanNames n value))

def Given (setting : PortSetting) (line : List UInt8) : Prop :=
  ∃ value, setting.Spelled value ∧ Gives setting.token value line

/-- Setting it once more changes nothing. -/
def Holds (setting : PortSetting) (s : SerialSettings) : Prop := setting.apply s = s

end PortSetting

/-- A configuration that a file can give: strings in blocks of their own size, ints that
are ints, ports that pass their checks, and no user looked up yet. -/
structure Config.Writable (conf : Config) : Prop where
  text : ∀ field block, conf.text field = some block → block = .of block.bytes
  number : ∀ field, -2 ^ 31 ≤ conf.number field ∧ conf.number field < 2 ^ 31
  ids : conf.uid = 0 ∧ conf.gid = 0
  few : conf.ports.length ≤ MAX_SPORTS
  ports : ∀ port ∈ conf.ports, port.Valid ∧ ∃ text, port.description = some (.of text)

/-- No allocation fails while the lines are read. -/
structure ConfigReader.Ready (r : ConfigReader) : Prop where
  reading : r.status = .reading
  granted : r.allocs = []
  described : ∃ text, r.defaults.description = some (.of text)

def ConfigReader.withPorts (r : ConfigReader) (ports : List ConfiguredPort) : ConfigReader :=
  {r with conf := {r.conf with ports := ports}}

def ConfiguredPort.withSettings (port : ConfiguredPort) (s : SerialSettings) : ConfiguredPort :=
  {port with toSerialSettings := s}

theorem ConfigReader.Ready.withPorts {r : ConfigReader} (ready : r.Ready) (ports : List ConfiguredPort) :
    (r.withPorts ports).Ready := ⟨ready.reading,ready.granted,ready.described⟩

theorem Remark.read {line : List UInt8} (remark : Remark line) {r : ConfigReader} (ready : r.Ready) :
    readLine r (line ++ [10]) = r := by
  rw [ConfigReader.readLine_act ready.reading,remark.lineAction]
  rfl

def GeneralSetting.put : GeneralSetting → Config → Config
  | string field text,conf =>
    let block := (conf.text field).elim (.of text) fun block => {block with bytes := text}
    {conf with text := Function.update conf.text field (some block)}
  | number field n,conf => {conf with number := Function.update conf.number field n}

theorem string_action (field : StringField) (type : ValueType) (value : List UInt8) :
    ConfigEntry.action ⟨field.token,type,value⟩ = .string field value := by
  cases field <;> rfl

theorem number_action (field : NumberField) (type : ValueType) (value : List UInt8) :
    ConfigEntry.action ⟨field.token,type,value⟩ =
      .number field (if field.Flag then saveBoolean value else saveInt value) := by
  cases field <;> rfl

theorem GeneralSetting.Given.read {setting : GeneralSetting} {line : List UInt8} (given : setting.Given line)
    (range : ∀ field n, setting = .number field n → -2 ^ 31 ≤ n ∧ n < 2 ^ 31) {r : ConfigReader}
    (ready : r.Ready) : readLine r (line ++ [10]) = {r with conf := setting.put r.conf} := by
  obtain ⟨value,spelled,gives⟩ := given
  rw [ConfigReader.readLine_act ready.reading,gives.lineAction]
  obtain ⟨conf,defaults,place,_,_⟩ := r
  obtain ⟨reading,granted,_⟩ := ready
  cases reading
  cases granted
  cases setting with
  | string field text =>
    obtain rfl : value = text := spelled
    change ConfigReader.act _ (ConfigEntry.action ⟨field.token,_,_⟩) = _
    rw [string_action]
    unfold ConfigReader.act ConfigReader.onString put
    dsimp only
    cases conf.text field <;> rfl
  | number field n =>
    obtain ⟨low,high⟩ := range field n rfl
    change ConfigReader.act _ (ConfigEntry.action ⟨field.token,_,_⟩) = _
    rw [number_action]
    unfold ConfigReader.act ConfigReader.onNumber put
    by_cases flag : field.Flag
    · have named : Named booleanNames n value := by simpa only [Spelled,if_pos flag] using spelled
      dsimp only
      rw [if_pos flag,saveBoolean_named named]
      rfl
    · have same : value = numeral n := by simpa only [Spelled,if_neg flag] using spelled
      dsimp only
      rw [if_neg flag,same]
      unfold saveInt
      rw [atoi_numeral low high]
      rfl

namespace PortSetting

/-- What the check of the field lets pass. -/
def Accepted : PortSetting → Prop
  | speed n => validSerialSpeed n = true
  | databits n => n ∈ [5,6,7,8]
  | stopbits n => n ∈ [1,2]
  | description _ | parity _ | flowcontrol _ | connFlush _ | discFlush _ => True

theorem validSerialSpeed_bound {speed : Nat} (valid : validSerialSpeed speed = true) : speed < 2 ^ 31 := by
  have small : ∀ speed ∈ [0,50,75,110,134,150,200,300,600,1200,2400,4800,9600,19200,38400,57600,115200,230400,
      460800], speed < 2 ^ 31 := by decide
  exact small speed (of_decide_eq_true valid)

theorem saveUnsigned_numeral {n : Nat} (small : n < 2 ^ 31) (old : Nat) :
    saveUnsigned (numeral n) old [] = (false,n,[]) := by
  have read : (atoi (numeral n) % 2 ^ 32).toNat = n := by
    rw [atoi_numeral (by omega) (by omega)]
    omega
  unfold saveUnsigned
  rw [read]

theorem saveLong_numeral {n : Nat} (small : n < 2 ^ 31) (old : Nat) :
    saveLong (numeral n) old [] = (false,n,[]) := by
  have read : (atol (numeral n) % 2 ^ 64).toNat = n := by
    unfold atol
    rw [strtol_numeral (by unfold LONG_MIN; omega) (by unfold LONG_MAX; omega)]
    omega
  unfold saveLong
  rw [read]

theorem Spelled.acts {setting : PortSetting} {value : List UInt8} (spelled : setting.Spelled value)
    (accepted : setting.Accepted) (type : ValueType) :
    ∃ save, ConfigEntry.action ⟨setting.token,type,value⟩ = .serial save ∧
      ∀ s, save s [] = (false,setting.apply s,[]) := by
  cases setting with
  | description text =>
    obtain rfl : value = text := spelled
    exact ⟨saveDescription value,rfl,fun s => rfl⟩
  | speed n =>
    obtain rfl : value = numeral n := spelled
    refine ⟨saveSpeed (numeral n),rfl,fun s => ?_⟩
    have valid : validSerialSpeed n = true := accepted
    unfold saveSpeed
    rw [saveLong_numeral (validSerialSpeed_bound accepted)]
    dsimp only
    rw [valid]
    rfl
  | databits n =>
    obtain rfl : value = numeral n := spelled
    refine ⟨saveDatabits (numeral n),rfl,fun s => ?_⟩
    have valid : n ∈ [8,7,6,5] := (List.reverse_perm [5,6,7,8]).mem_iff.mpr accepted
    have small : ∀ n ∈ [8,7,6,5], n < 2 ^ 31 := by decide
    unfold saveDatabits
    rw [saveUnsigned_numeral (small n valid)]
    dsimp only
    rw [decide_eq_false (not_not.mpr valid)]
    rfl
  | parity n =>
    refine ⟨saveParity value,rfl,fun s => ?_⟩
    rw [saveParity_eq,parityValue_named spelled]
    rfl
  | stopbits n =>
    obtain rfl : value = numeral n := spelled
    refine ⟨saveStopbits (numeral n),rfl,fun s => ?_⟩
    have valid : n ∈ [1,2] := accepted
    have small : ∀ n ∈ [1,2], n < 2 ^ 31 := by decide
    unfold saveStopbits
    rw [saveUnsigned_numeral (small n valid)]
    dsimp only
    rw [decide_eq_false (not_not.mpr valid)]
    rfl
  | flowcontrol n =>
    refine ⟨saveFlowcontrol value,rfl,fun s => ?_⟩
    rw [saveFlowcontrol_eq,flowcontrolValue_named spelled]
    rfl
  | connFlush n =>
    refine ⟨saveConnFlush value,rfl,fun s => ?_⟩
    unfold saveConnFlush
    rw [saveBoolean_named spelled]
    rfl
  | discFlush n =>
    refine ⟨saveDiscFlush value,rfl,fun s => ?_⟩
    unfold saveDiscFlush
    rw [saveBoolean_named spelled]
    rfl

theorem Holds.accepted {setting : PortSetting} {s : SerialSettings} (valid : s.Valid) (holds : setting.Holds s) :
    setting.Accepted := by
  have kept : (setting.apply s).Valid := holds.symm ▸ valid
  cases setting with
  | speed => exact kept.speed
  | databits => exact kept.databits
  | stopbits => exact kept.stopbits
  | _ => trivial

theorem Given.read {setting : PortSetting} {line : List UInt8} (given : setting.Given line)
    (accepted : setting.Accepted) {r : ConfigReader} (ready : r.Ready) {before : List ConfiguredPort}
    (points : r.serialDevice = some before.length) (port : ConfiguredPort) :
    readLine (r.withPorts (before ++ [port])) (line ++ [10]) =
      r.withPorts (before ++ [port.withSettings (setting.apply port.toSerialSettings)]) := by
  obtain ⟨value,spelled,gives⟩ := given
  obtain ⟨save,acts,saved⟩ := spelled.acts accepted setting.token.type
  have last : (before ++ [port])[before.length]? = some port := by simp
  rw [ConfigReader.readLine_act (ready.withPorts _).reading,gives.lineAction,acts]
  change (r.withPorts (before ++ [port])).onSerialDevice save = _
  rw [(r.withPorts (before ++ [port])).onSerialDevice_port save points last]
  obtain ⟨conf,defaults,place,_,_⟩ := r
  obtain ⟨reading,granted,_⟩ := ready
  cases reading
  cases granted
  unfold ConfigReader.withPorts ConfiguredPort.withSettings
  dsimp only
  rw [saved,List.set_append_right _ _ (Nat.le_refl _),Nat.sub_self]
  rfl

end PortSetting

theorem Lays.general {settings : List GeneralSetting} {lines : List (List UInt8)}
    (lays : Lays GeneralSetting.Given settings lines)
    (range : ∀ field n, .number field n ∈ settings → -2 ^ 31 ≤ n ∧ n < 2 ^ 31) {r : ConfigReader}
    (ready : r.Ready) : Machine.run readLine r (lines.map (· ++ [10])) =
      {r with conf := settings.foldl (fun conf setting => setting.put conf) r.conf} := by
  induction lays generalizing r with
  | nil => rfl
  | remark void rest ih =>
    rw [List.map_cons,Machine.run_cons,void.read ready]
    exact ih range ready
  | item given rest ih =>
    have first := given.read (fun field n same => range field n (same ▸ List.mem_cons_self)) ready
    rw [List.map_cons,Machine.run_cons,first,List.foldl_cons]
    exact ih (fun field n later => range field n (List.mem_cons_of_mem _ later))
      ⟨ready.reading,ready.granted,ready.described⟩

theorem Lays.port {settings : List PortSetting} {lines : List (List UInt8)}
    (lays : Lays PortSetting.Given settings lines) (accepted : ∀ setting ∈ settings, setting.Accepted)
    {r : ConfigReader} (ready : r.Ready) {before : List ConfiguredPort}
    (points : r.serialDevice = some before.length) (port : ConfiguredPort) :
    Machine.run readLine (r.withPorts (before ++ [port])) (lines.map (· ++ [10])) =
      r.withPorts (before ++
        [port.withSettings (Sections.applyAll PortSetting.apply settings port.toSerialSettings)]) := by
  induction lays generalizing port with
  | nil => rfl
  | remark void rest ih =>
    rw [List.map_cons,Machine.run_cons,void.read (ready.withPorts _)]
    exact ih accepted port
  | item given rest ih =>
    obtain ⟨one,others⟩ := List.forall_mem_cons.mp accepted
    rw [List.map_cons,Machine.run_cons,given.read one ready points]
    exact ih others _

/-- Among values that are all the same, the last one is that value. -/
theorem getLast?_only {β : Type} {xs : List β} {x : β} (member : x ∈ xs) (only : ∀ y ∈ xs, y = x)
    (default : β) : xs.getLast?.getD default = x := by
  obtain ⟨y,last⟩ := Option.isSome_iff_exists.mp (List.getLast?_isSome.mpr (List.ne_nil_of_mem member))
  rw [last,Option.getD_some]
  exact only y (List.mem_of_getLast? last)

attribute [ext] SerialSettings

section
variable {settings : List PortSetting} {target : SerialSettings}

theorem view_holding {β : Type} (view : SerialSettings → β) (field : PortSetting → Option β)
    (sets : ∀ setting s, view (PortSetting.apply setting s) = (field setting).getD (view s))
    (all : ∀ setting, setting ∈ settings ↔ setting.Holds target) (setting : PortSetting)
    (holds : setting.Holds target) (value : field setting = some (view target)) (s : SerialSettings) :
    view (Sections.applyAll PortSetting.apply settings s) = view target := by
  rw [Sections.view_applyAll view field sets]
  refine getLast?_only ?_ ?_ _
  · exact List.mem_filterMap.mpr ⟨setting,(all setting).mpr holds,value⟩
  · intro y member
    obtain ⟨other,inside,said⟩ := List.mem_filterMap.mp member
    have kept := sets other target
    rw [(all other).mp inside,said] at kept
    exact kept.symm

/-- The settings that a port holds, in whatever order, make it what it is. -/
theorem applyAll_holding (all : ∀ setting, setting ∈ settings ↔ setting.Holds target)
    (described : ∃ text, target.description = some (.of text)) (s : SerialSettings) :
    Sections.applyAll PortSetting.apply settings s = target := by
  obtain ⟨text,described⟩ := described
  have kept : (PortSetting.description text).Holds target := by
    obtain ⟨_,_,_,_,_,_,_,_⟩ := target
    cases described
    rfl
  have both {β : Type} (view : SerialSettings → β) (field : PortSetting → Option β)
      (sets : ∀ setting s, view (PortSetting.apply setting s) = (field setting).getD (view s)) :=
    view_holding view field sets all
  apply SerialSettings.ext
  · refine both _ PortSetting.description? (fun setting s => ?_) _ kept (congrArg some described.symm) s
    cases setting <;> rfl
  · refine both _ PortSetting.speed? (fun setting s => ?_) (.speed target.speed) rfl rfl s
    cases setting <;> rfl
  · refine both _ PortSetting.databits? (fun setting s => ?_) (.databits target.databits) rfl rfl s
    cases setting <;> rfl
  · refine both _ PortSetting.parity? (fun setting s => ?_) (.parity target.parity) rfl rfl s
    cases setting <;> rfl
  · refine both _ PortSetting.stopbits? (fun setting s => ?_) (.stopbits target.stopbits) rfl rfl s
    cases setting <;> rfl
  · refine both _ PortSetting.flowcontrol? (fun setting s => ?_) (.flowcontrol target.flowcontrol) rfl rfl s
    cases setting <;> rfl
  · refine both _ PortSetting.connFlush? (fun setting s => ?_) (.connFlush target.connFlush) rfl rfl s
    cases setting <;> rfl
  · refine both _ PortSetting.discFlush? (fun setting s => ?_) (.discFlush target.discFlush) rfl rfl s
    cases setting <;> rfl

end

section
variable {settings : List GeneralSetting} {P Q : Config → Prop}

def putAll (settings : List GeneralSetting) (conf : Config) : Config :=
  settings.foldl (fun conf setting => setting.put conf) conf

theorem putAll_keeps (keeps : ∀ setting ∈ settings, ∀ conf, P conf → P (setting.put conf)) {conf : Config}
    (start : P conf) : P (putAll settings conf) := by
  induction settings generalizing conf with
  | nil => exact start
  | cons setting settings ih =>
    obtain ⟨first,later⟩ := List.forall_mem_cons.mp keeps
    exact ih later (first conf start)

/-- What one of the settings brings about, the ones behind it keep. -/
theorem putAll_reaches (before : ∀ setting ∈ settings, ∀ conf, P conf → P (setting.put conf))
    (behind : ∀ setting ∈ settings, ∀ conf, Q conf → Q (setting.put conf)) {one : GeneralSetting}
    (member : one ∈ settings) (brings : ∀ conf, P conf → Q (one.put conf)) {conf : Config} (start : P conf) :
    Q (putAll settings conf) := by
  obtain ⟨early,late,rfl⟩ := List.append_of_mem member
  unfold putAll
  rw [List.foldl_append,List.foldl_cons]
  refine putAll_keeps (fun setting inside => behind setting ?_) (brings _ ?_)
  · exact List.mem_append_right _ (List.mem_cons_of_mem _ inside)
  · exact putAll_keeps (fun setting inside => before setting (List.mem_append_left _ inside)) start

end

section
variable {target : Config} {field : StringField} {setting : GeneralSetting} {conf : Config}

/-- The field has nothing yet, or what it is to have. -/
def Underway (target : Config) (field : StringField) (conf : Config) : Prop :=
  conf.text field = none ∨ conf.text field = target.text field

theorem put_said {text : List UInt8} (holds : (GeneralSetting.string field text).Holds target)
    (underway : Underway target field conf) :
    ((GeneralSetting.string field text).put conf).text field = target.text field := by
  have said : target.text field = some (.of text) := holds
  rw [said]
  refine (Function.update_self ..).trans (congrArg some ?_)
  obtain none | same := underway
  · rw [none]
    rfl
  · rw [same,said]
    rfl

theorem put_other {other : StringField} (different : field ≠ other) (text : List UInt8) (conf : Config) :
    ((GeneralSetting.string other text).put conf).text field = conf.text field :=
  Function.update_of_ne different ..

theorem put_text (holds : setting.Holds target) (same : conf.text field = target.text field) :
    (setting.put conf).text field = target.text field := by
  cases setting with
  | number => exact same
  | string other text =>
    by_cases about : field = other
    · subst about
      exact put_said holds (.inr same)
    · exact (put_other about text conf).trans same

theorem put_underway (holds : setting.Holds target) (underway : Underway target field conf) :
    Underway target field (setting.put conf) := by
  obtain none | same := underway
  · cases setting with
    | number => exact .inl none
    | string other text =>
      by_cases about : field = other
      · subst about
        exact .inr (put_said holds (.inl none))
      · exact .inl ((put_other about text conf).trans none)
  · exact .inr (put_text holds same)

theorem put_number {field : NumberField} (holds : setting.Holds target)
    (same : conf.number field = target.number field) :
    (setting.put conf).number field = target.number field := by
  cases setting with
  | string => exact same
  | number other n =>
    by_cases about : field = other
    · subst about
      exact (Function.update_self ..).trans holds.symm
    · exact (Function.update_of_ne about ..).trans same

end

/-- The settings that a configuration holds, in whatever order, make all of it but its ports. -/
theorem putAll_holding {conf : Config} (writable : conf.Writable) {settings : List GeneralSetting}
    (all : ∀ setting, setting ∈ settings ↔ setting.Holds conf) :
    putAll settings .initial = {conf with ports := []} := by
  have holds (setting : GeneralSetting) (member : setting ∈ settings) := (all setting).mp member
  have text : (putAll settings .initial).text = conf.text := by
    funext field
    have underway : Underway conf field (putAll settings .initial) :=
      putAll_keeps (fun setting member _ => put_underway (holds setting member)) (.inl rfl)
    cases wanted : conf.text field with
    | none =>
      obtain none | same := underway
      · exact none
      · exact same.trans wanted
    | some block =>
      have said : (GeneralSetting.string field block.bytes).Holds conf := by
        have own := writable.text field block wanted
        exact wanted.trans (congrArg some own)
      rw [← wanted]
      exact putAll_reaches (P := Underway conf field) (Q := fun reached => reached.text field = conf.text field)
        (fun setting member _ => put_underway (holds setting member))
        (fun setting member _ => put_text (holds setting member)) ((all _).mpr said)
        (fun _ => put_said said) (.inl rfl)
  have number : (putAll settings .initial).number = conf.number := by
    funext field
    exact putAll_reaches (P := fun _ => True) (Q := fun reached => reached.number field = conf.number field)
      (fun _ _ _ => id) (fun setting member _ => put_number (holds setting member))
      ((all (.number field _)).mpr rfl)
      (fun _ _ => Function.update_self ..) trivial
  have rest : (putAll settings .initial).uid = 0 ∧ (putAll settings .initial).gid = 0 ∧
      (putAll settings .initial).ports = [] := by
    refine putAll_keeps (P := fun conf => conf.uid = 0 ∧ conf.gid = 0 ∧ conf.ports = [])
      (fun setting _ conf same => ?_) ⟨rfl,rfl,rfl⟩
    cases setting with
    | string => exact same
    | number => exact same
  obtain ⟨uid,gid⟩ := writable.ids
  generalize putAll settings .initial = reached at text number rest
  obtain ⟨_,_,_,_,_⟩ := reached
  obtain ⟨_,_,_,_,_⟩ := conf
  obtain ⟨rfl,rfl,rfl⟩ := rest
  cases text
  cases number
  cases uid
  cases gid
  rfl

end SerialIp
