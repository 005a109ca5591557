import SerialIp.WrittenSettings

/-! A configuration as the lines of a file, and that read_configuration_file reads each
such file as the configuration that it was written for. -/
namespace SerialIp
open Library

/-- The device line of a port, with everything that the port has behind it in any order. -/
def PortLines (port : ConfiguredPort) (lines : List (List UInt8)) : Prop :=
  ∃ path first settings rest, port.device = some path ∧ Gives .DEVICE path first ∧
    (∀ setting, setting ∈ settings ↔ setting.Holds port.toSerialSettings) ∧
    Lays PortSetting.Given settings rest ∧ lines = first::rest

def Config.WrittenAs (conf : Config) (file : List UInt8) : Prop :=
  ∃ settings general sections, (∀ setting, setting ∈ settings ↔ setting.Holds conf) ∧
    Lays GeneralSetting.Given settings general ∧ List.Forall₂ PortLines conf.ports sections ∧
    file = (general ++ sections.flatten).flatMap (· ++ [10])

theorem saveDevice_ready {r : ConfigReader} (ready : r.Ready) {path : List UInt8} (some : path ≠ [])
    (few : r.conf.ports.length < MAX_SPORTS) : saveDevice path r = {r with
      conf := {r.conf with ports := r.conf.ports ++ [portOf (path,r.defaults)]}
      serialDevice := .some r.conf.ports.length} := by
  obtain ⟨text,described⟩ := ready.described
  have adds : addSerialPortInfo r.conf path [] = (false,
      {r.conf with ports := r.conf.ports ++ [{allocSerialPort with device := path}]},[]) := by
    unfold addSerialPortInfo
    rw [if_neg some,if_neg (Nat.not_le.mpr few)]
    rfl
  refine (saveDevice_granted ready.granted described ?_).2
  unfold saveDevice
  rw [ready.granted,adds]
  dsimp only
  rw [if_neg nofun,List.length_append,List.length_singleton,described]
  exact ready.reading

theorem sections_read {ports : List ConfiguredPort} {sections : List (List (List UInt8))}
    (all : List.Forall₂ PortLines ports sections)
    (valid : ∀ port ∈ ports, port.Valid ∧ ∃ text, port.description = some (.of text))
    {r : ConfigReader} (ready : r.Ready) {before : List ConfiguredPort}
    (few : before.length + ports.length ≤ MAX_SPORTS) :
    ∃ place, Machine.run readLine (r.withPorts before) (sections.flatten.map (· ++ [10])) =
      {r.withPorts (before ++ ports) with serialDevice := place} := by
  induction all generalizing r before with
  | nil =>
    refine ⟨r.serialDevice,?_⟩
    rw [List.append_nil]
    rfl
  | @cons port lines ports sections own others ih =>
    obtain ⟨path,first,settings,rest,device,gives,holding,lays,rfl⟩ := own
    obtain ⟨⟨passes,described⟩,later⟩ := List.forall_mem_cons.mp valid
    rw [List.length_cons] at few
    have opened : readLine (r.withPorts before) (first ++ [10]) =
        ({r with serialDevice := some before.length} : ConfigReader).withPorts
          (before ++ [portOf (path,r.defaults)]) := by
      have room : (r.withPorts before).conf.ports.length < MAX_SPORTS := by
        change before.length < MAX_SPORTS
        omega
      rw [ConfigReader.readLine_act (ready.withPorts _).reading,gives.lineAction]
      exact saveDevice_ready (ready.withPorts before) gives.some room
    have again : ({r with serialDevice := some before.length} : ConfigReader).Ready :=
      ⟨ready.reading,ready.granted,ready.described⟩
    have accepted : ∀ setting ∈ settings, setting.Accepted := fun setting member =>
      ((holding setting).mp member).accepted passes
    have same : (portOf (path,r.defaults)).withSettings port.toSerialSettings = port := by
      obtain ⟨settings,_⟩ := port
      cases device
      rfl
    have room : (before ++ [port]).length + ports.length ≤ MAX_SPORTS := by
      rw [List.length_append,List.length_singleton]
      omega
    obtain ⟨place,left⟩ := ih later again room
    refine ⟨place,?_⟩
    rw [List.flatten_cons,List.map_append,List.map_cons,List.cons_append,Machine.run_cons,opened,
      Machine.run_append,lays.port accepted again rfl,applyAll_holding holding described,same,left,
      List.append_assoc]
    rfl

theorem sections_short {ports : List ConfiguredPort} {sections : List (List (List UInt8))}
    (all : List.Forall₂ PortLines ports sections) :
    ∀ line ∈ sections.flatten, 10 ∉ line ∧ line.length < BUFSIZ - 1 := by
  induction all with
  | nil => exact nofun
  | cons own others ih =>
    obtain ⟨_,first,_,rest,_,gives,_,lays,rfl⟩ := own
    have inside := lays.short fun _ _ given => given.elim fun _ given => given.2.fits
    intro line member
    rw [List.flatten_cons,List.mem_append,List.mem_cons] at member
    obtain (rfl | one) | other := member
    · exact gives.fits
    · exact inside line one
    · exact ih line other

/-- Whatever the order, the spelling and the remarks of a file, it is read as the
configuration that it was written for. -/
theorem configuration_round_trip (conf : Config) (writable : conf.Writable) (file : List UInt8)
    (written : conf.WrittenAs file) : (readConfigurationFile file .initial []).status = .reading ∧
      (readConfigurationFile file .initial []).conf = conf := by
  obtain ⟨settings,general,sections,all,lays,ports,rfl⟩ := written
  have short : ∀ line ∈ general ++ sections.flatten, 10 ∉ line ∧ line.length < BUFSIZ - 1 := by
    intro line member
    obtain first | later := List.mem_append.mp member
    · exact lays.short (fun _ _ given => given.elim fun _ given => given.2.fits) line first
    · exact sections_short ports line later
  have start : (ConfigReader.start .initial []).Ready := ⟨rfl,rfl,_,rfl⟩
  have range (field : NumberField) (n : Int) (member : .number field n ∈ settings) :
      -2 ^ 31 ≤ n ∧ n < 2 ^ 31 := by
    have same : conf.number field = n := (all _).mp member
    exact same ▸ writable.number field
  have ready : ({ConfigReader.start .initial [] with conf := conf}).Ready := ⟨rfl,rfl,_,rfl⟩
  have room : (([] : List ConfiguredPort).length + conf.ports.length) ≤ MAX_SPORTS := by
    rw [List.length_nil,Nat.zero_add]
    exact writable.few
  obtain ⟨place,left⟩ := sections_read ports writable.ports ready room
  have named : Machine.run readLine (.start .initial []) (general.map (· ++ [10])) =
      ({ConfigReader.start .initial [] with conf := conf}).withPorts [] := by
    rw [lays.general range start]
    exact congrArg (fun conf => {ConfigReader.start .initial [] with conf := conf}) (putAll_holding writable all)
  unfold readConfigurationFile
  rw [fgetsLines_short _ short,List.map_append,Machine.run_append,named,left]
  exact ⟨rfl,rfl⟩

@[simp] theorem Text.of_inj {first second : List UInt8} : Text.of first = Text.of second ↔ first = second :=
  ⟨congrArg Text.bytes,congrArg Text.of⟩

def spaced : Layout := ⟨[],[32],[32],[],false,by decide +kernel⟩

theorem Gives.plainly (i : Fin keywordTable.length) (value : List UInt8)
    (word : value ≠ [] ∧ Bare value ∧ ∀ c ∈ value, c ≠ 0 ∧ c ≠ 10 ∧ c ≠ 13)
    (short : (spaced.line (keywordTable.get i).name value).length < BUFSIZ - 1) :
    Gives (keywordTable.get i).token value (spaced.line (keywordTable.get i).name value) :=
  ⟨word.1,word.2.1,word.2.2,⟨keywordTable.get i,List.get_mem ..,rfl,spaced,_,rfl,rfl⟩,short⟩

def oneModem : Config where
  text
    | .pidfile => some (.of (ascii "/run/sabre.pid"))
    | _ => none
  number
    | .timeout => 60
    | .sendLogout => 1
    | .debuglevel => -1
    | _ => 0
  uid := 0
  gid := 0
  ports := [⟨⟨some (.of (ascii "modem")),19200,7,PARITY_EVEN,2,SOFTWARE_FLOW,1,0⟩,
    some (ascii "/dev/ttyS0")⟩]

def oneModemFile : List UInt8 := [ascii "pid file = /run/sabre.pid",
  ascii "debug level = -1",
  ascii "timeout = 60",
  ascii "modemstate poll interval = 0",
  ascii "linestate poll interval = 0",
  ascii "reply Purge Data = off",
  ascii "idle timer = 0",
  ascii "send Telnet LOGOUT = Yes",
  ascii "# the only port",
  ascii "port = /dev/ttyS0",
  ascii "baudrate = 19200",
  ascii "databits = 7",
  ascii "stopbits = 2",
  ascii "parity = EVEN",
  ascii "flow control = xon/xoff",
  ascii "flush on connect = 1",
  ascii "flush on disconnect = 0",
  ascii "description = modem"].flatMap (· ++ [10])

theorem oneModem_writable : oneModem.Writable where
  text field block found := by
    cases field <;> cases found
    rfl
  number field := by cases field <;> decide
  ids := ⟨rfl,rfl⟩
  few := by decide
  ports := List.forall_mem_singleton.mpr ⟨⟨by decide,by decide,by decide,by decide,by decide⟩,_,rfl⟩

theorem oneModem_written : oneModem.WrittenAs oneModemFile := by
  have comment : Remark (ascii "# the only port") := ⟨by decide +kernel,.inr (.inl rfl),by decide +kernel⟩
  have general : Lays GeneralSetting.Given [.string .pidfile (ascii "/run/sabre.pid"),.number .debuglevel (-1),
      .number .timeout 60,.number .msPollinterval 0,.number .lsPollinterval 0,.number .replyPurgeData 0,
      .number .idletimer 0,.number .sendLogout 1] _ :=
    .item ⟨_,by decide,Gives.plainly ⟨11,by decide⟩ (ascii "/run/sabre.pid") (by decide +kernel) (by decide +kernel)⟩ <|
    .item ⟨_,by decide,Gives.plainly ⟨20,by decide⟩ (ascii "-1") (by decide +kernel) (by decide +kernel)⟩ <|
    .item ⟨_,by decide,Gives.plainly ⟨13,by decide⟩ (ascii "60") (by decide +kernel) (by decide +kernel)⟩ <|
    .item ⟨_,by decide,Gives.plainly ⟨17,by decide⟩ (ascii "0") (by decide +kernel) (by decide +kernel)⟩ <|
    .item ⟨_,by decide,Gives.plainly ⟨18,by decide⟩ (ascii "0") (by decide +kernel) (by decide +kernel)⟩ <|
    .item ⟨_,by decide,Gives.plainly ⟨14,by decide⟩ (ascii "off") (by decide +kernel) (by decide +kernel)⟩ <|
    .item ⟨_,by decide,Gives.plainly ⟨23,by decide⟩ (ascii "0") (by decide +kernel) (by decide +kernel)⟩ <|
    .item ⟨_,by decide,Gives.plainly ⟨24,by decide⟩ (ascii "Yes") (by decide +kernel) (by decide +kernel)⟩ <|
    .remark comment .nil
  have port : Lays PortSetting.Given [.speed 19200,.databits 7,.stopbits 2,.parity PARITY_EVEN,
      .flowcontrol SOFTWARE_FLOW,.connFlush 1,.discFlush 0,.description (ascii "modem")] _ :=
    .item ⟨_,by decide,Gives.plainly ⟨29,by decide⟩ (ascii "19200") (by decide +kernel) (by decide +kernel)⟩ <|
    .item ⟨_,by decide,Gives.plainly ⟨3,by decide⟩ (ascii "7") (by decide +kernel) (by decide +kernel)⟩ <|
    .item ⟨_,by decide,Gives.plainly ⟨5,by decide⟩ (ascii "2") (by decide +kernel) (by decide +kernel)⟩ <|
    .item ⟨_,by decide,Gives.plainly ⟨4,by decide⟩ (ascii "EVEN") (by decide +kernel) (by decide +kernel)⟩ <|
    .item ⟨_,by decide,Gives.plainly ⟨6,by decide⟩ (ascii "xon/xoff") (by decide +kernel) (by decide +kernel)⟩ <|
    .item ⟨_,by decide,Gives.plainly ⟨7,by decide⟩ (ascii "1") (by decide +kernel) (by decide +kernel)⟩ <|
    .item ⟨_,by decide,Gives.plainly ⟨8,by decide⟩ (ascii "0") (by decide +kernel) (by decide +kernel)⟩ <|
    .item ⟨_,by decide,Gives.plainly ⟨0,by decide⟩ (ascii "modem") (by decide +kernel) (by decide +kernel)⟩ <|
    .nil
  have device := Gives.plainly ⟨27,by decide⟩ (ascii "/dev/ttyS0") (by decide +kernel) (by decide +kernel)
  refine ⟨_,_,[_],fun setting => ?_,general,.cons ⟨_,_,_,_,rfl,device,fun setting => ?_,port,rfl⟩ .nil,?_⟩
  · cases setting with
    | string field text =>
      cases field <;> simp [GeneralSetting.Holds,oneModem,eq_comm]
    | number field n => cases field <;> simp [GeneralSetting.Holds,oneModem,eq_comm]
  · cases setting <;> simp [PortSetting.Holds,PortSetting.apply,eq_comm]
  · decide +kernel

theorem configuration_round_trip_oneModem :
    (readConfigurationFile oneModemFile .initial []).status = .reading ∧
      (readConfigurationFile oneModemFile .initial []).conf = oneModem :=
  configuration_round_trip oneModem oneModem_writable oneModemFile oneModem_written

end SerialIp
