import SerialIp.BufferRuns
import SerialIp.CommandBuffer
import SerialIp.LineSettings

/-! What a suboption is answered with. The four line settings share one answer; it
carries the setting as the port has it after the call, whatever was asked for. -/
namespace SerialIp
open Library Buffer Session

namespace Setting

/-- The codes of a request by the client and of the answer. -/
def request : Setting → UInt8
  | baudrate => CPC_SET_BAUDRATE_C2S
  | datasize => CPC_SET_DATASIZE_C2S
  | parity => CPC_SET_PARITY_C2S
  | stopsize => CPC_SET_STOPSIZE_C2S

def reply : Setting → UInt8
  | baudrate => CPC_SET_BAUDRATE_S2C
  | datasize => CPC_SET_DATASIZE_S2C
  | parity => CPC_SET_PARITY_S2C
  | stopsize => CPC_SET_STOPSIZE_S2C

/-- The number of bytes in which the answer carries the value. -/
def width : Setting → Nat
  | baudrate => 4
  | datasize | parity | stopsize => 1

/-- The value that asks for the setting as it is. -/
def asking : Setting → Nat
  | baudrate => 0
  | datasize => CPC_DATASIZE_REQUEST
  | parity => CPC_PARITY_REQUEST
  | stopsize => CPC_STOPSIZE_REQUEST

def respond (setting : Setting) : Nat → Session → Int × Session :=
  respondSetting setting.asking setting.get setting.set setting.reply setting.width

theorem dispatchSuboption_setting (setting : Setting) {suboptcode : UInt8}
    (code : suboptcode = setting.request ∨ suboptcode = setting.reply) (value : Nat) (s : Session) :
    dispatchSuboption suboptcode value s = setting.respond value s := by
  cases setting with
  | baudrate | datasize | parity | stopsize => rcases code with rfl | rfl <;> rfl

theorem reading_bound (setting : Setting) (term : Termios) :
    setting.reading term < 256^setting.width := by
  cases setting with
  | baudrate =>
    have inside : ∀ entry ∈ speeds, entry.1 < 256^4 := by decide
    change speedT2ulong _ < 256^4
    unfold speedT2ulong
    cases found : speeds.find? fun entry => entry.2 = term.cfgetospeed with
    | none => decide
    | some entry => exact inside entry (List.mem_of_find?_eq_some found)
  | datasize =>
    change term.datasize < 256^1
    unfold Termios.datasize
    dsimp only
    split_ifs <;> decide
  | parity =>
    change term.parity < 256^1
    unfold Termios.parity
    split_ifs <;> decide
  | stopsize =>
    change term.stopsize < 256^1
    unfold Termios.stopsize
    split_ifs <;> decide

end Setting

@[simp] theorem bigEndian_length (width value : Nat) : (bigEndian width value).length = width := by
  induction width generalizing value with
  | zero => rfl
  | succ width ih => simp [bigEndian,ih]

/-- The value is read back from its bytes as long as these are enough for it. -/
theorem networkValue_bigEndian (width value : Nat) :
    networkValue (bigEndian width value) = value % 256^width := by
  induction width generalizing value with
  | zero => simp [bigEndian,networkValue,Nat.mod_one]
  | succ width ih =>
    have step : networkValue (bigEndian (width+1) value) =
        networkValue (bigEndian width (value/256))*256+(UInt8.ofNat value).toNat := by
      simp [bigEndian,networkValue]
    have low : (UInt8.ofNat value).toNat = value % 256 := UInt8.toNat_ofNat'
    have wide : value % 256^(width+1) = value % 256+256*(value/256 % 256^width) := by
      rw [pow_succ',Nat.mod_mul]
    rw [step,ih,low,wide,add_comm,mul_comm]

/-- What is on its way to the client, sent or still in the buffer, has grown by `bytes`. -/
structure Appends (bytes : List UInt8) (s t : Session) : Prop where
  valid : Invariant t.sabre
  device : t.device = s.device
  grown : t.wire.flatten ++ t.sabre.content = s.wire.flatten ++ s.sabre.content ++ bytes

theorem appendToSabre_appends {s : Session} {bytes : List UInt8} (invariant : Invariant s.sabre)
    (room : s.sabre.readp+bytes.length ≤ s.sabre.tailp) : Appends bytes s (s.appendToSabre bytes) := by
  obtain ⟨valid,content⟩ := invariant.append room
  have grown : (s.appendToSabre bytes).sabre.content = s.sabre.content ++ bytes := content
  refine ⟨valid,rfl,?_⟩
  rw [grown,List.append_assoc]
  rfl

/-- Whatever write() takes, what it leaves stays in the buffer. -/
theorem writeSabre_appends {s : Session} (invariant : Invariant s.sabre) :
    Appends [] s s.writeSabre.2 := by
  obtain ⟨valid,rest⟩ := invariant.write (s.replies.headD .all)
  unfold writeSabre
  dsimp only
  split
  · exact ⟨invariant,rfl,(List.append_nil _).symm⟩
  · refine ⟨valid,rfl,?_⟩
    rw [rest,List.flatten_append,List.flatten_singleton,List.append_nil,List.append_assoc]

theorem Appends.trans {a b c : Session} {first second : List UInt8} (early : Appends first a b)
    (late : Appends second b c) : Appends (first ++ second) a c := by
  refine ⟨late.valid,late.device.trans early.device,?_⟩
  rw [late.grown,early.grown,List.append_assoc _ first]

theorem sendTelnetCpcSuboption_appends {s : Session} {suboptcode : UInt8} {content : List UInt8}
    (invariant : Invariant s.sabre)
    (room : s.sabre.readp+(suboption suboptcode content).length ≤ s.sabre.tailp) :
    Appends (suboption suboptcode content) s (sendTelnetCpcSuboption suboptcode content s).2 := by
  have built (block : Block UInt8) : Appends (suboption suboptcode content) s
      ({s with optstr := block}.appendToSabre (suboption suboptcode content)) := by
    obtain ⟨valid,device,grown⟩ := appendToSabre_appends invariant room
    exact ⟨valid,device,grown⟩
  have written (block : Block UInt8) : Appends (suboption suboptcode content) s
      ({s with optstr := block}.appendToSabre (suboption suboptcode content)).writeSabre.2 := by
    have whole := (built block).trans (writeSabre_appends (built block).valid)
    rw [List.append_nil] at whole
    exact whole
  unfold sendTelnetCpcSuboption
  dsimp only
  rw [buildSuboption_read]
  split
  · split
    · exact written _
    · exact written _
  · exact built _

theorem suboption_short {content : List UInt8} (short : content.length ≤ 4) (suboptcode : UInt8) :
    suboption suboptcode content =
      [IAC,SB,TELOPT_COM_PORT_OPTION,suboptcode] ++ stuff IAC content ++ [IAC,SE] ∧
      (suboption suboptcode content).length ≤ 14 := by
  have doubled := stuff_length IAC content
  have fewer := List.count_le_length (a := IAC) (l := content)
  have whole : (stuff IAC content).take 253 = stuff IAC content := List.take_of_length_le (by omega)
  unfold suboption
  rw [whole]
  refine ⟨rfl,?_⟩
  simp only [List.length_append,List.length_cons,List.length_nil]
  omega

namespace Setting

theorem get_eq (setting : Setting) {device : SerialDevice} (succeeds : device.Succeeds) :
    setting.get device = (setting.reading device.term,⟨device.term,device.outcomes.tail⟩) := by
  cases setting with
  | baudrate | datasize | parity | stopsize =>
    exact SerialDevice.getSetting_succeeds succeeds _ _

def payload (setting : Setting) (term : Termios) : List UInt8 :=
  bigEndian setting.width (setting.reading term)

theorem payload_short (setting : Setting) (term : Termios) : (setting.payload term).length ≤ 4 := by
  unfold payload
  rw [bigEndian_length]
  cases setting <;> decide

theorem payload_value (setting : Setting) (term : Termios) :
    networkValue (setting.payload term) = setting.reading term := by
  unfold payload
  rw [networkValue_bigEndian,Nat.mod_eq_of_lt (setting.reading_bound term)]

/-- Asked or set, the setting is read last, and what was read is sent. -/
theorem respond_eq (setting : Setting) (value : Nat) {s : Session} (succeeds : s.device.Succeeds) :
    ∃ device : SerialDevice, device.Succeeds ∧ (setting.respond value s).2 =
      (sendTelnetCpcSuboption setting.reply (setting.payload device.term) {s with device := device}).2 := by
  unfold respond respondSetting
  dsimp only
  split
  · rw [setting.get_eq succeeds]
    exact ⟨_,succeeds.later s.device.term,rfl⟩
  · have set := (succeeds.later s.device.term).later (setting.change value s.device.term)
    rw [setting.set_succeeds value succeeds,setting.get_eq set]
    exact ⟨_,set.later _,rfl⟩

/-- The answer of a setting: one suboption, with the value that the port has afterwards. -/
theorem respond_appends (setting : Setting) (value : Nat) {s : Session}
    (succeeds : s.device.Succeeds) (invariant : Invariant s.sabre)
    (room : s.sabre.readp+14 ≤ s.sabre.tailp) :
    let t := (setting.respond value s).2
    t.device.Succeeds ∧ t.wire.flatten ++ t.sabre.content = s.wire.flatten ++ s.sabre.content ++
      suboption setting.reply (setting.payload t.device.term) := by
  obtain ⟨device,calls,sent⟩ := setting.respond_eq value succeeds
  have short := (suboption_short (setting.payload_short device.term) setting.reply).2
  have there : Invariant {s with device := device}.sabre := invariant
  have fits : s.sabre.readp+(suboption setting.reply (setting.payload device.term)).length ≤
      s.sabre.tailp := by omega
  obtain ⟨_,same,grown⟩ := sendTelnetCpcSuboption_appends there fits
  dsimp only
  rw [sent,same]
  exact ⟨calls,grown⟩

end Setting

/-- The codes that get an answer: the signature and the four settings, either way. -/
def Answered (suboptcode : UInt8) : Prop :=
  suboptcode ≤ 4 ∨ 100 ≤ suboptcode ∧ suboptcode ≤ 104

instance (suboptcode : UInt8) : Decidable (Answered suboptcode) :=
  inferInstanceAs (Decidable (_ ∨ _))

theorem dispatchSuboption_other {suboptcode : UInt8} (other : ¬Answered suboptcode) (value : Nat)
    (s : Session) : dispatchSuboption suboptcode value s = (0,s) := by
  have apart {first second : UInt8} (one : Answered first) (two : Answered second) :
      ¬(suboptcode = first ∨ suboptcode = second) := by
    refine not_or.mpr ⟨fun same => other ?_,fun same => other ?_⟩
    · rw [same]
      exact one
    · rw [same]
      exact two
  unfold dispatchSuboption
  rw [if_neg (apart (by decide) (by decide)),if_neg (apart (by decide) (by decide)),
    if_neg (apart (by decide) (by decide)),if_neg (apart (by decide) (by decide)),
    if_neg (apart (by decide) (by decide))]

/-- The suboption is terminated: the first SE behind its code comes right after an IAC. -/
def EndsInIacSe (mem : Block UInt8) (optstr optlen : Int) : Prop :=
  3 ≤ optlen ∧ ∃ se, mystrchr mem (optstr+1) SE (optlen-1) = some se ∧ mem.cell (se-1) = IAC

theorem suboptionLength_isSome (mem : Block UInt8) (optstr optlen : Int) :
    (∃ len, suboptionLength mem optstr optlen = some len) ↔ EndsInIacSe mem optstr optlen := by
  unfold suboptionLength EndsInIacSe
  by_cases short : optlen < 3
  · rw [if_pos short]
    exact iff_of_false (by simp) (fun ends => absurd short (not_lt.mpr ends.1))
  · rw [if_neg short]
    cases mystrchr mem (optstr+1) SE (optlen-1) with
    | none => simp
    | some se => simp [not_lt.mp short]

/-- Every accepted request about a setting, whatever its payload, is answered once, with
the setting as it is then; what is rejected or unknown is not answered and sets nothing. -/
theorem honest_reply (mem : Block UInt8) (optstr optlen : Int) (s : Session)
    (succeeds : s.device.Succeeds) (invariant : Invariant s.sabre) (empty : s.sabre.content = [])
    (capacity : s.sabre.size = SIZE_BUFFER) :
    let t := (processTelnetCpcSuboption mem optstr optlen s).2
    (∀ setting : Setting, EndsInIacSe mem optstr optlen →
      mem.cell optstr = setting.request ∨ mem.cell optstr = setting.reply →
      ∃ payload : List UInt8, payload.length = setting.width ∧
        networkValue payload = (setting.get t.device).1 ∧
        t.wire.flatten ++ t.sabre.content = s.wire.flatten ++
          ([IAC,SB,TELOPT_COM_PORT_OPTION,setting.reply] ++ stuff IAC payload ++ [IAC,SE])) ∧
    (¬EndsInIacSe mem optstr optlen ∨ ¬Answered (mem.cell optstr) →
      t.wire = s.wire ∧ t.sabre = s.sabre ∧ t.device = s.device) := by
  have room : s.sabre.readp+14 ≤ s.sabre.tailp := by
    have counted := invariant.toValid.holds.counted
    rw [empty] at counted
    have rewound := (invariant.rewound counted).1
    rw [rewound,invariant.tail,capacity]
    decide
  rw [processTelnetCpcSuboption_eq]
  refine ⟨?_,?_⟩
  · intro setting accepted code
    obtain ⟨len,length⟩ := (suboptionLength_isSome mem optstr optlen).mpr accepted
    rw [length]
    dsimp only
    rw [Setting.dispatchSuboption_setting setting code]
    generalize commandValue _ = value
    generalize noticed : Session.notice _ _ = before
    have device : before.device = s.device := noticed ▸ rfl
    have sabre : before.sabre = s.sabre := noticed ▸ rfl
    have wire : before.wire = s.wire := noticed ▸ rfl
    rw [← device] at succeeds
    rw [← sabre] at invariant empty room
    obtain ⟨calls,grown⟩ := setting.respond_appends value succeeds invariant room
    have short := setting.payload_short (setting.respond value before).2.device.term
    rw [(suboption_short short _).1,empty,List.append_nil,wire] at grown
    refine ⟨_,bigEndian_length _ _,?_,grown⟩
    rw [setting.get_succeeds calls]
    exact setting.payload_value _
  · intro unanswered
    cases length : suboptionLength mem optstr optlen with
    | none => exact ⟨rfl,rfl,rfl⟩
    | some len =>
      have accepted := (suboptionLength_isSome mem optstr optlen).mp ⟨len,length⟩
      have other := unanswered.resolve_left (not_not.mpr accepted)
      dsimp only
      rw [dispatchSuboption_other other]
      exact ⟨rfl,rfl,rfl⟩

/-- Seven data bits are asked for. -/
theorem honest_reply_datasize :
    let mem := Block.copy ⟨fun _ => 0,[]⟩ 0 [CPC_SET_DATASIZE_C2S,7,IAC,SE]
    let s := processStart ⟨⟨0,0,0xBD,0⟩,[]⟩
    let t := (processTelnetCpcSuboption mem 0 4 s).2
    ∃ payload : List UInt8, payload.length = 1 ∧
      networkValue payload = (Setting.datasize.get t.device).1 ∧
      t.wire.flatten ++ t.sabre.content = s.wire.flatten ++
        ([IAC,SB,TELOPT_COM_PORT_OPTION,CPC_SET_DATASIZE_S2C] ++ stuff IAC payload ++ [IAC,SE]) :=
  (honest_reply (Block.copy ⟨fun _ => 0,[]⟩ 0 [CPC_SET_DATASIZE_C2S,7,IAC,SE]) 0 4
    (processStart ⟨⟨0,0,0xBD,0⟩,[]⟩)
    (fun _ member => absurd member List.not_mem_nil) (bfmalloc_invariant SIZE_BUFFER)
    (bfmalloc_holds SIZE_BUFFER).content_eq (bfmalloc_size (by decide))).1 .datasize
    ⟨by decide,3,by decide,by decide⟩ (Or.inl (by decide))

end SerialIp
