import SerialIp.ReadConfiguration

/-! The memory of the configuration strings. The first line of a keyword fixes the
size of its block, and every later one is copied into that block. -/
namespace SerialIp
open Library

/-- Every string that the reader has stored is inside its block. -/
structure ConfigReader.Fitting (r : ConfigReader) : Prop where
  strings : ∀ field, ∀ text ∈ r.conf.text field, text.Fits
  defaults : ∀ text ∈ r.defaults.description, text.Fits
  ports : ∀ port ∈ r.conf.ports, ∀ text ∈ port.description, text.Fits

def lineValue (field : StringField) (buffer : List UInt8) : Option (List UInt8) :=
  match lineAction buffer with
  | .string other value => if other = field then some value else none
  | _ => none

def fieldValues (field : StringField) (lines : List (List UInt8)) : List (List UInt8) :=
  lines.filterMap (lineValue field)

/-- The block after these values were saved into one target. -/
def blockOf : List (List UInt8) → Option Text
  | [] => none
  | first::rest => some ⟨first.length + 1,rest.getLast?.getD first⟩

theorem blockOf_concat (values : List (List UInt8)) (value : List UInt8) :
    blockOf (values ++ [value]) = some (match blockOf values with
      | some block => {block with bytes := value}
      | none => .of value) := by
  cases values with
  | nil => rfl
  | cons first rest =>
    change some (Text.mk _ ((rest ++ [value]).getLast?.getD first)) = _
    rw [List.getLast?_concat]
    rfl

theorem blockOf_bytes (values : List (List UInt8)) :
    (blockOf values).map Text.bytes = values.getLast? := by
  cases values with
  | nil => rfl
  | cons first rest => exact List.getLast?_cons.symm

theorem blockOf_room (values : List (List UInt8)) (value : List UInt8) :
    (∀ block ∈ blockOf values, value.length + 1 ≤ block.size) ↔
      ∀ first ∈ values.head?, value.length ≤ first.length := by
  cases values with
  | nil => simp [blockOf]
  | cons first rest => simp [blockOf]

theorem fieldValues_concat (field : StringField) (lines : List (List UInt8)) (line : List UInt8) :
    fieldValues field (lines ++ [line]) = fieldValues field lines ++ (lineValue field line).toList := by
  unfold fieldValues
  rw [List.filterMap_append]
  cases found : lineValue field line with
  | none => simp [found]
  | some value => simp [found]

theorem saveString_cases (value : List UInt8) (target : Option Text) (allocs : List Bool) :
    (∃ rest, saveString value target allocs = (false,some (match target with
      | some block => {block with bytes := value}
      | none => .of value),rest)) ∨
    target = none ∧ ∃ rest, saveString value target allocs = (true,none,rest) := by
  cases target with
  | some block => exact Or.inl ⟨allocs,rfl⟩
  | none =>
    unfold saveString
    dsimp only
    split
    · exact Or.inl ⟨_,rfl⟩
    · exact Or.inr ⟨rfl,_,rfl⟩

/-- The description, where there is one, is inside its block. -/
def SerialSettings.Fitting (s : SerialSettings) : Prop := ∀ text ∈ s.description, text.Fits

theorem saveDescription_fitting (value : List UInt8) (s : SerialSettings) (allocs : List Bool) :
    (saveDescription value s allocs).2.1.Fitting := by
  intro text found
  change (saveString value none allocs).2.1 = some text at found
  rcases saveString_cases value none allocs with ⟨_,saved⟩ | ⟨_,_,failed⟩
  · rw [saved] at found
    cases found
    exact Text.of_fits value
  · rw [failed] at found
    contradiction

theorem action_fitting {entry : ConfigEntry} {save : Save SerialSettings}
    (acts : entry.action = .serial save) {s : SerialSettings} (fitting : s.Fitting)
    (allocs : List Bool) : (save s allocs).2.1.Fitting := by
  obtain ⟨token,_,value⟩ := entry
  cases token with
  | DESCRIPTION =>
    obtain rfl := Action.serial.inj acts
    exact saveDescription_fitting value s allocs
  | SPEED | DATABITS | STOPBITS | CONNFLUSH | DISCFLUSH =>
    obtain rfl := Action.serial.inj acts
    exact fitting
  | PARITY =>
    obtain rfl := Action.serial.inj acts
    unfold saveParity
    split_ifs <;> exact fitting
  | FLOWCONTROL =>
    obtain rfl := Action.serial.inj acts
    unfold saveFlowcontrol
    split_ifs <;> exact fitting
  | _ => contradiction

theorem strdup_fits {s : List UInt8} {allocs : List Bool} {text : Text}
    (copied : text ∈ (strdup s allocs).1) : text.Fits := by
  change (if (allocate allocs).1 then some (Text.of s) else none) = some text at copied
  split at copied
  · cases copied
    exact Text.of_fits s
  · contradiction

theorem forall_mem_modify {α : Type} {holds : α → Prop} {change : α → α} (n : Nat) {xs : List α}
    (all : ∀ x ∈ xs, holds x) (kept : ∀ x, holds (change x)) : ∀ x ∈ xs.modify n change, holds x := by
  intro x member
  obtain ⟨i,found⟩ := List.mem_iff_getElem?.mp member
  rw [List.getElem?_modify] at found
  obtain ⟨old,there,rfl⟩ := Option.map_eq_some_iff.mp found
  split
  · exact kept old
  · exact all old (List.mem_of_getElem? there)

namespace ConfigReader
variable {r : ConfigReader}

theorem Fitting.onSerialDevice {entry : ConfigEntry} {save : Save SerialSettings}
    (acts : entry.action = .serial save) (fitting : r.Fitting) : (r.onSerialDevice save).Fitting := by
  unfold ConfigReader.onSerialDevice
  split
  · exact ⟨fitting.strings,action_fitting acts fitting.defaults r.allocs,fitting.ports⟩
  · split
    · exact ⟨fitting.strings,fitting.defaults,fitting.ports⟩
    · rename_i port found
      refine ⟨fitting.strings,fitting.defaults,fun other member => ?_⟩
      rcases List.mem_or_eq_of_mem_set member with old | rfl
      · exact fitting.ports other old
      · exact action_fitting acts (fitting.ports port (List.mem_of_getElem? found)) r.allocs

theorem addSerialPortInfo_text (conf : Config) (path : List UInt8) (allocs : List Bool) :
    (addSerialPortInfo conf path allocs).2.1.text = conf.text := by
  unfold addSerialPortInfo
  split_ifs
  · rfl
  · rfl
  · dsimp only
    split <;> rfl

theorem addSerialPortInfo_ports (conf : Config) (path : List UInt8) (allocs : List Bool) :
    (addSerialPortInfo conf path allocs).2.1.ports = conf.ports ∨
      ∃ device, (addSerialPortInfo conf path allocs).2.1.ports =
        conf.ports ++ [{allocSerialPort with device := device}] := by
  unfold addSerialPortInfo
  split_ifs
  · exact Or.inl rfl
  · exact Or.inl rfl
  · dsimp only
    split
    · exact Or.inr ⟨_,rfl⟩
    · exact Or.inl rfl

theorem saveDevice_text (path : List UInt8) : (saveDevice path r).conf.text = r.conf.text := by
  unfold saveDevice
  dsimp only
  split
  · exact addSerialPortInfo_text _ _ _
  · split <;> exact addSerialPortInfo_text _ _ _

theorem Fitting.saveDevice (path : List UInt8) (fitting : r.Fitting) :
    (saveDevice path r).Fitting := by
  have ports : ∀ port ∈ (addSerialPortInfo r.conf path r.allocs).2.1.ports,
      port.toSerialSettings.Fitting := by
    rcases addSerialPortInfo_ports r.conf path r.allocs with same | ⟨device,added⟩
    · rw [same]
      exact fitting.ports
    · rw [added]
      intro port member
      rcases List.mem_append.mp member with old | new
      · exact fitting.ports port old
      · obtain rfl := List.mem_singleton.mp new
        exact fun _ none => nomatch none
  refine ⟨?_,?_,?_⟩
  · rw [saveDevice_text]
    exact fitting.strings
  · unfold SerialIp.saveDevice
    dsimp only
    split
    · exact fitting.defaults
    · split <;> exact fitting.defaults
  · unfold SerialIp.saveDevice
    dsimp only
    split
    · exact ports
    · split
      · exact forall_mem_modify _ ports fun _ text copied => strdup_fits copied
      · exact ports

/-- The next string has room in the block of its keyword, if there is one. -/
def Room (r : ConfigReader) (line : List UInt8) : Prop :=
  r.status = .reading → ∀ field value, lineAction line = .string field value →
    ∀ block ∈ r.conf.text field, value.length + 1 ≤ block.size

theorem onString_text (field : StringField) (value : List UInt8) :
    (r.onString field (saveString value)).conf.text =
      Function.update r.conf.text field (saveString value (r.conf.text field) r.allocs).2.1 := rfl

theorem fitting_onString (fitting : r.Fitting) (field : StringField) (value : List UInt8) :
    (r.onString field (saveString value)).Fitting ↔
      ∀ block ∈ r.conf.text field, value.length + 1 ≤ block.size := by
  constructor
  · intro next block found
    have saved : (r.onString field (saveString value)).conf.text field =
        some {block with bytes := value} := by
      rw [onString_text,Function.update_self,Option.mem_def.mp found]
      rfl
    exact next.strings field _ saved
  · intro room
    refine ⟨fun other text found => ?_,fitting.defaults,fitting.ports⟩
    rw [onString_text] at found
    by_cases same : other = field
    · subst same
      rw [Function.update_self] at found
      rcases saveString_cases value (r.conf.text other) r.allocs with ⟨_,saved⟩ | ⟨_,_,failed⟩
      · rw [saved] at found
        cases found
        split
        · rename_i block here
          exact room block here
        · exact Text.of_fits value
      · rw [failed] at found
        contradiction
    · rw [Function.update_of_ne same] at found
      exact fitting.strings other text found

/-- One step: all strings stay inside their blocks if and only if the next one has room. -/
theorem Fitting.readLine (fitting : r.Fitting) (line : List UInt8) :
    (SerialIp.readLine r line).Fitting ↔ r.Room line := by
  unfold SerialIp.readLine Room
  cases r.status with
  | failed | crashed => exact iff_of_true fitting nofun
  | reading =>
    dsimp only
    cases action : lineAction line with
    | string field value =>
      refine (fitting_onString fitting field value).trans ?_
      constructor
      · intro room _ other text same
        cases same
        exact room
      · exact fun room => room rfl field value rfl
    | skip => exact iff_of_true fitting fun _ _ _ => nofun
    | number field save =>
      exact iff_of_true ⟨fitting.strings,fitting.defaults,fitting.ports⟩ fun _ _ _ => nofun
    | serial save =>
      obtain ⟨entry,_,acts⟩ := lineAction_entry action nofun
      exact iff_of_true (fitting.onSerialDevice acts) fun _ _ _ => nofun
    | device path => exact iff_of_true (fitting.saveDevice path) fun _ _ _ => nofun

theorem onSerialDevice_text (save : Save SerialSettings) :
    (r.onSerialDevice save).conf.text = r.conf.text := by
  unfold onSerialDevice
  split
  · rfl
  · split <;> rfl

theorem act_text {action : Action} (other : ∀ field value, action ≠ .string field value) :
    (r.act action).conf.text = r.conf.text := by
  cases action with
  | skip => rfl
  | string field value => exact absurd rfl (other field value)
  | number field save => rfl
  | serial save => exact onSerialDevice_text save
  | device path => exact saveDevice_text path

theorem onString_saved {field : StringField} {value : List UInt8}
    (after : (r.onString field (saveString value)).status = .reading) :
    (r.onString field (saveString value)).conf.text = Function.update r.conf.text field
      (some (match r.conf.text field with
        | some block => {block with bytes := value}
        | none => .of value)) := by
  rw [onString_text]
  change Status.of (saveString value (r.conf.text field) r.allocs).1 = .reading at after
  rcases saveString_cases value (r.conf.text field) r.allocs with ⟨_,saved⟩ | ⟨_,_,failed⟩
  · rw [saved]
  · rw [failed] at after
    contradiction

theorem lineValue_string {field : StringField} {line value : List UInt8}
    (acts : lineAction line = .string field value) (other : StringField) :
    lineValue other line = if field = other then some value else none := by
  unfold lineValue
  rw [acts]

theorem lineValue_other {field : StringField} {line : List UInt8}
    (other : ∀ found value, lineAction line ≠ .string found value) : lineValue field line = none := by
  unfold lineValue
  split
  · exact absurd ‹_› (other _ _)
  · rfl

/-- A line of the keyword saves its value, any other line leaves the string alone. -/
theorem readLine_text {line : List UInt8} (after : (readLine r line).status = .reading)
    (field : StringField) : (readLine r line).conf.text field =
      match lineValue field line with
      | some value => some (match r.conf.text field with
        | some block => {block with bytes := value}
        | none => .of value)
      | none => r.conf.text field := by
  have turn : readLine r line = r.act (lineAction line) := readLine_act (reading_before after)
  rw [turn] at after ⊢
  by_cases acts : ∃ found value, lineAction line = .string found value
  · obtain ⟨found,value,acts⟩ := acts
    rw [acts] at after ⊢
    rw [lineValue_string acts]
    refine (congrFun (onString_saved after) field).trans ?_
    by_cases same : found = field
    · subst same
      rw [Function.update_self,if_pos rfl]
    · rw [Function.update_of_ne (Ne.symm same),if_neg same]
  · have other (found : StringField) (value : List UInt8) : lineAction line ≠ .string found value :=
      fun same => acts ⟨found,value,same⟩
    rw [lineValue_other other,act_text other]

/-- While the reader goes on, the block of a string is that of the values read so far. -/
theorem text_eq_blockOf (allocs : List Bool) (lines : List (List UInt8)) :
    (Machine.run readLine (.start .initial allocs) lines).status = .reading →
      ∀ field, (Machine.run readLine (.start .initial allocs) lines).conf.text field =
        blockOf (fieldValues field lines) := by
  induction lines using List.reverseRecOn with
  | nil => exact fun _ _ => rfl
  | append_singleton lines line ih =>
    rw [Machine.run_concat]
    intro after field
    rw [readLine_text after,ih (reading_before after) field,fieldValues_concat]
    cases lineValue field line with
    | none => simp
    | some value => exact (blockOf_concat _ _).symm

end ConfigReader

/-- What is promised of the strings: while the file is read every copy stays inside its
block, and in the end each string is the value of the last line for it. -/
def StringsFit (file : List UInt8) (allocs : List Bool) : Prop :=
  Machine.Throughout readLine ConfigReader.Fitting (.start .initial allocs) (fgetsLines file) ∧
    ((readConfigurationFile file .initial allocs).status = .reading →
      ∀ field, ((readConfigurationFile file .initial allocs).conf.text field).map Text.bytes =
        (fieldValues field (fgetsLines file)).getLast?)

/-- No line that is still read has a longer value than the first line of its keyword. -/
def FirstLongest (file : List UInt8) (allocs : List Bool) : Prop :=
  ∀ before line, before ++ [line] <+: fgetsLines file →
    (Machine.run readLine (.start .initial allocs) before).status = .reading →
    ∀ field value, lineAction line = .string field value →
      ∀ first ∈ (fieldValues field before).head?, value.length ≤ first.length

theorem ConfigReader.start_fitting (allocs : List Bool) :
    (ConfigReader.start .initial allocs).Fitting := by
  refine ⟨?_,?_,?_⟩
  · exact fun _ _ none => nomatch none
  · exact fun _ copied => strdup_fits copied
  · exact fun _ none => nomatch none

theorem room_iff (allocs : List Bool) (before : List (List UInt8)) (line : List UInt8) :
    (Machine.run readLine (.start .initial allocs) before).Room line ↔
      ((Machine.run readLine (.start .initial allocs) before).status = .reading →
        ∀ field value, lineAction line = .string field value →
          ∀ first ∈ (fieldValues field before).head?, value.length ≤ first.length) := by
  refine forall_congr' fun reading => forall_congr' fun field => forall_congr' fun value =>
    forall_congr' fun _ => ?_
  rw [ConfigReader.text_eq_blockOf allocs before reading]
  exact blockOf_room _ _

/-- The configuration strings fit their memory if and only if no line is read whose value
is longer than the first one of its keyword. -/
theorem strings_fit_iff (file : List UInt8) (allocs : List Bool) :
    StringsFit file allocs ↔ FirstLongest file allocs := by
  have last : (readConfigurationFile file .initial allocs).status = .reading →
      ∀ field, ((readConfigurationFile file .initial allocs).conf.text field).map Text.bytes =
        (fieldValues field (fgetsLines file)).getLast? := by
    intro reading field
    unfold readConfigurationFile at reading ⊢
    rw [ConfigReader.text_eq_blockOf allocs _ reading]
    exact blockOf_bytes _
  have fits : Machine.Throughout readLine ConfigReader.Fitting (.start .initial allocs)
      (fgetsLines file) ↔
      Machine.Along readLine ConfigReader.Room (.start .initial allocs) (fgetsLines file) :=
    Machine.throughout_iff_along (fun _ => True) _ (fun _ _ => True) _ (fun _ _ _ _ => trivial)
      (fun _ line _ fitting _ => fitting.readLine line) trivial
      (ConfigReader.start_fitting allocs) (Machine.along_of_forall _ fun _ _ => trivial)
  refine (and_iff_left last).trans (fits.trans ((Machine.along_iff_prefixes _ _ _ _).trans ?_))
  exact forall_congr' fun before => forall_congr' fun line => forall_congr' fun _ =>
    room_iff allocs before line

/-- The directory gets a block of two bytes, and then five bytes are copied to it. -/
theorem second_string_overflows :
    ¬StringsFit (ascii "directory = /
directory = /tmp
") [] := by
  intro fit
  have fitting := (Machine.throughout_iff_prefixes _ _ _ _).mp fit.1 _ List.prefix_rfl
  have inside : Text.Fits ⟨2,ascii "/tmp"⟩ := fitting.strings .directory _ rfl
  exact absurd inside (by decide)

end SerialIp
