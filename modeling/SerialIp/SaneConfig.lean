import SerialIp.ConfigurationSections
import SerialIp.ParentSignals

/-! From the configuration file to the server: serial_ip_init with sane_config, which
fills in what the file left out, and what server_init and the session take from it. -/
namespace SerialIp
open Library

/-- The user and group data bases and the file system. -/
structure Environment where
  getpwnam : List UInt8 → Option Nat
  getgrnam : List UInt8 → Option Nat
  fopen : List UInt8 → Option (List UInt8)
  isDirectory : List UInt8 → Bool

namespace Config

/-- `if (conf->field == NULL) conf->field = strdup(def)`. -/
def defaultText (field : StringField) (default : List UInt8) (conf : Config) (allocs : List Bool) :
    Config × List Bool :=
  match conf.text field with
  | some _ => (conf,allocs)
  | none =>
    let (text,allocs) := strdup default allocs
    ({conf with text := Function.update conf.text field text},allocs)

def defaultNumber (field : NumberField) (unset : Int → Bool) (default : Int) (conf : Config) : Config :=
  if unset (conf.number field) then
    {conf with number := Function.update conf.number field default}
  else conf

/-- `is_directory`, which finds no directory at NULL. -/
def hasDirectory (env : Environment) (field : StringField) (conf : Config) : Bool :=
  (conf.text field).any fun text => env.isDirectory text.bytes

end Config

/-- The server type is checked where there is one. -/
def saneServerType (conf : Config) (allocs : List Bool) : Option (Config × List Bool) :=
  match conf.text .serverType with
  | none => some (conf.defaultText .serverType (ascii "raw TCP gateway") allocs)
  | some serverType =>
    if serverType.bytes = ascii "raw TCP gateway" ∨ serverType.bytes = ascii "concurrent" ∨
        serverType.bytes = ascii "iterative" then some (conf,allocs)
    else none

def saneDefaults (conf : Config) (allocs : List Bool) : Config :=
  let (conf,allocs) := conf.defaultText .pidfile (ascii "/var/run/serial_ip.pid") allocs
  let conf := conf.defaultNumber .timeout (· ≤ 0) 30
  let conf := conf.defaultNumber .msPollinterval (· ≤ 0) 10
  let conf := conf.defaultNumber .lsPollinterval (· ≤ 0) 30
  let conf := conf.defaultNumber .replyPurgeData (· < 0) 0
  let (conf,allocs) := conf.defaultText .directory (ascii ".") allocs
  let (conf,allocs) := conf.defaultText .tmpdir (ascii "/tmp") allocs
  let (conf,allocs) := conf.defaultText .lockdir (ascii "/var/lock") allocs
  let (conf,_) := conf.defaultText .locktemplate (ascii "LCK..%s") allocs
  let conf := conf.defaultNumber .idletimer (· < 0) 0
  conf.defaultNumber .sendLogout (· < 0) 0

/-- `sane_config`; where it returns 1 there is no configuration. -/
def saneConfig (env : Environment) (conf : Config) (allocs : List Bool) : Option Config := do
  let user ← conf.text .user
  let uid ← env.getpwnam user.bytes
  let group ← conf.text .group
  let gid ← env.getgrnam group.bytes
  let (conf,allocs) ← saneServerType {conf with uid := uid, gid := gid} allocs
  let conf := saneDefaults conf allocs
  guard (conf.hasDirectory env .directory)
  guard (conf.hasDirectory env .tmpdir)
  guard (conf.hasDirectory env .lockdir)
  guard (1 ≤ conf.ports.length)
  return conf

/-- The configuration that serial_ip_init leaves, unless it exits. -/
def serialIpInit (env : Environment) (configFile : Option (List UInt8)) (allocs : List Bool) :
    Option Config := do
  let file ← env.fopen (configFile.getD (ascii "/etc/serial_ip.conf"))
  let r := readConfigurationFile file .initial allocs
  guard (r.status = .reading)
  saneConfig env r.conf r.allocs

/-- The tests of server_init on the server type in their order. A loop does not return,
and behind the last test there is `exit(1)`. -/
def serverInit (serverType : List UInt8) : List ServerType :=
  (if serverType = ascii "concurrent" then [.concurrent] else []) ++
  (if serverType = ascii "iterative" then [.iterative] else []) ++
  (if serverType = ascii "raw TCP gateway" then [.rawTcpGateway] else [])

/-- The seconds that serial_ip_communication_process waits in select(). -/
def Config.tvsecs (conf : Config) : Int :=
  let tvsecs := min (conf.number .msPollinterval) (conf.number .lsPollinterval)
  if conf.number .idletimer > 0 then min (conf.number .idletimer) tvsecs else tvsecs

/-- What the server takes for granted of its configuration. -/
structure Config.Servable (conf : Config) : Prop where
  server : ∃ serverType server, conf.text .serverType = some serverType ∧
    serverInit serverType.bytes = [server]
  strings : ∀ field, field ≠ .debuglog → conf.text field ≠ none
  ports : 1 ≤ conf.ports.length
  devices : ∀ port ∈ conf.ports, ∃ path, port.device = some path ∧ path ≠ []
  timeout : 1 ≤ conf.tvsecs

theorem Config.defaultText_granted (field : StringField) (default : List UInt8) (conf : Config) :
    conf.defaultText field default [] = ({conf with
      text := Function.update conf.text field (some ((conf.text field).getD (.of default)))},[]) := by
  unfold defaultText
  cases found : conf.text field with
  | none => rfl
  | some text =>
    have same : Function.update conf.text field (some text) = conf.text := by
      rw [← found]
      exact Function.update_eq_self _ _
    dsimp only [Option.getD_some]
    rw [same]

theorem Config.defaultNumber_eq (field : NumberField) (unset : Int → Bool) (default : Int)
    (conf : Config) : conf.defaultNumber field unset default = {conf with
      number := Function.update conf.number field
        (if unset (conf.number field) then default else conf.number field)} := by
  unfold defaultNumber
  split
  · rfl
  · rw [Function.update_eq_self]

/-- The defaults keep what there is, leave no other string NULL that they are for, and
make both poll intervals positive. -/
theorem saneDefaults_granted (conf : Config) : ∃ text number,
    saneDefaults conf [] = {conf with text := text, number := number} ∧
      (∀ field kept, conf.text field = some kept → text field = some kept) ∧
      (∀ field, field ∉ [.debuglog,.user,.group,.serverType] → text field ≠ none) ∧
      1 ≤ number .msPollinterval ∧ 1 ≤ number .lsPollinterval := by
  unfold saneDefaults
  simp only [Config.defaultText_granted,Config.defaultNumber_eq]
  refine ⟨_,_,rfl,?_,?_,?_,?_⟩
  · intro field kept found
    cases field <;> simp [found]
  · intro field other
    cases field <;> simp_all
  · have positive (interval : Int) : 1 ≤ (if interval ≤ 0 then 10 else interval) := by
      split <;> omega
    simpa using positive (conf.number .msPollinterval)
  · have positive (interval : Int) : 1 ≤ (if interval ≤ 0 then 30 else interval) := by
      split <;> omega
    simpa using positive (conf.number .lsPollinterval)

theorem saneServerType_granted {conf conf' : Config} {allocs : List Bool}
    (sane : saneServerType conf [] = some (conf',allocs)) :
    allocs = [] ∧ conf'.ports = conf.ports ∧
      (∀ field kept, conf.text field = some kept → conf'.text field = some kept) ∧
      ∃ serverType server, conf'.text .serverType = some serverType ∧
        serverInit serverType.bytes = [server] := by
  unfold saneServerType at sane
  split at sane
  · rename_i unset
    rw [Config.defaultText_granted] at sane
    obtain ⟨rfl,rfl⟩ := Prod.mk.inj (Option.some.inj sane)
    refine ⟨rfl,rfl,?_,.of (ascii "raw TCP gateway"),.rawTcpGateway,?_,rfl⟩
    · intro field kept found
      refine (Function.update_of_ne ?_ _ _).trans found
      intro same
      subst same
      rw [unset] at found
      contradiction
    · dsimp only
      rw [Function.update_self,unset]
      rfl
  · rename_i serverType found
    split at sane
    · rename_i known
      obtain ⟨rfl,rfl⟩ := Prod.mk.inj (Option.some.inj sane)
      refine ⟨rfl,rfl,fun _ _ found => found,serverType,?_⟩
      rcases known with raw | concurrent | iterative
      · exact ⟨.rawTcpGateway,found,by rw [raw]; rfl⟩
      · exact ⟨.concurrent,found,by rw [concurrent]; rfl⟩
      · exact ⟨.iterative,found,by rw [iterative]; rfl⟩
    · contradiction

theorem tvsecs_positive {conf : Config} (modem : 1 ≤ conf.number .msPollinterval)
    (line : 1 ≤ conf.number .lsPollinterval) : 1 ≤ conf.tvsecs := by
  unfold Config.tvsecs
  dsimp only
  split
  · omega
  · omega

theorem of_guard {p : Prop} [Decidable p] {result : Unit}
    (passed : (guard p : Option Unit) = some result) : p := by
  unfold guard at passed
  split at passed
  · assumption
  · contradiction

/-- A configuration that sane_config lets through has all the server needs, where its
ports have their devices. -/
theorem saneConfig_servable {env : Environment} {conf conf' : Config}
    (devices : ∀ port ∈ conf.ports, ∃ path, port.device = some path ∧ path ≠ [])
    (sane : saneConfig env conf [] = some conf') : conf'.Servable := by
  simp only [saneConfig,bind,Option.bind_eq_some_iff] at sane
  obtain ⟨user,isUser,uid,_,group,isGroup,gid,_,⟨typed,allocs⟩,checked,sane⟩ := sane
  obtain ⟨rfl,ports,kept,serverType,server,isType,enters⟩ := saneServerType_granted checked
  obtain ⟨text,number,same,stays,filled,modem,line⟩ := saneDefaults_granted typed
  rw [same] at sane
  obtain ⟨_,_,_,_,_,_,_,counted,made⟩ := sane
  obtain rfl := Option.some.inj made
  have named (field : StringField) (value : Text) (found : conf.text field = some value) :
      text field ≠ none := by
    rw [stays field value (kept field value found)]
    exact nofun
  refine ⟨⟨serverType,server,stays _ _ isType,enters⟩,?_,of_guard counted,?_,tvsecs_positive modem line⟩
  · intro field other
    cases field with
    | debuglog => exact absurd rfl other
    | user => exact named _ user isUser
    | group => exact named _ group isGroup
    | serverType =>
      dsimp only
      rw [stays _ _ isType]
      exact nofun
    | _ => exact filled _ (by decide)
  · dsimp only
    rw [ports]
    exact devices

theorem lineDevice_ne_nil {line path : List UInt8} (found : lineDevice line = some path) :
    path ≠ [] := by
  obtain ⟨⟨token,_,value⟩,parsed,acts⟩ := lineAction_entry (lineDevice_some.mp found) nofun
  have filled := (parseEntry_ok parsed).2
  cases token with
  | DEVICE =>
    obtain rfl := Action.device.inj acts
    exact filled
  | _ => contradiction

/-- Every port of a file that is read without an error has the path of its device line. -/
theorem devices_of_reading {file : List UInt8}
    (accepted : (readConfigurationFile file .initial []).status = .reading) :
    ∀ port ∈ (readConfigurationFile file .initial []).conf.ports,
      ∃ path, port.device = some path ∧ path ≠ [] := by
  have tracks := tracks_run (fgetsLines file) accepted
  have entries : (Machine.run (Sections.Outline.step lineDevice applyLine) (.start defaultSettings)
      (fgetsLines file)).entries = _ := Sections.run_start _ _
  intro port member
  unfold readConfigurationFile at member
  rw [tracks.ports,entries] at member
  obtain ⟨entry,inside,rfl⟩ := List.mem_map.mp member
  obtain ⟨part,among,rfl⟩ := List.mem_map.mp inside
  obtain ⟨line,_,found⟩ := Sections.mem_sections among
  exact ⟨part.1,rfl,lineDevice_ne_nil found⟩

/-- A configuration that serial_ip_init accepts can be served: server_init enters exactly
one loop, no string it needs is NULL, there is a port and each port has a device, and
select() waits for at least a second. -/
theorem accepted_servable (env : Environment) (configFile : Option (List UInt8)) (conf : Config)
    (accepted : serialIpInit env configFile [] = some conf) : conf.Servable := by
  simp only [serialIpInit,bind,Option.bind_eq_some_iff] at accepted
  obtain ⟨file,_,_,finished,sane⟩ := accepted
  have reading := of_guard finished
  have allocs : (readConfigurationFile file .initial []).allocs = [] :=
    (tracks_run (fgetsLines file) reading).allocs
  rw [allocs] at sane
  exact saneConfig_servable (devices_of_reading reading) sane

/-- A host with a short configuration file in the usual place. -/
def plainHost : Environment where
  getpwnam name := if name = ascii "uucp" then some 10 else none
  getgrnam name := if name = ascii "uucp" then some 14 else none
  fopen path := if path = ascii "/etc/serial_ip.conf" then
    some (ascii "user = uucp\ngroup = uucp\nport = /dev/ttymxc0\nidle timer = 5\n") else none
  isDirectory path := path = ascii "." || path = ascii "/tmp" || path = ascii "/var/lock"

theorem accepted_servable_plainHost :
    ∃ conf, serialIpInit plainHost none [] = some conf ∧ conf.Servable :=
  ⟨_,rfl,accepted_servable plainHost none _ rfl⟩

end SerialIp
