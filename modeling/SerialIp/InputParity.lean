import SerialIp.SerialPort
import SerialIp.SettingEffect

/-! The parity flag of the control word and the two flags of the input word that go with
it: serial_init_termios sets all three, the setters of serial_handle.c the first alone. -/
namespace SerialIp
open Library Library.Mask

namespace Termios

/-- Input parity checking and stripping are both on with parity, and both off without. -/
def InputFollows (term : Termios) : Prop :=
  term.iflag &&& (INPCK ||| ISTRIP) =
    if term.cflag &&& PARENB ≠ 0 then INPCK ||| ISTRIP else 0

instance (term : Termios) : Decidable term.InputFollows := by
  unfold InputFollows
  infer_instance

theorem inputFollows_iff {term other : Termios} (follows : term.InputFollows)
    (same : other.iflag = term.iflag) : other.InputFollows ↔
      (other.cflag &&& PARENB ≠ 0 ↔ term.cflag &&& PARENB ≠ 0) := by
  have apart : (0 : BitVec 32) ≠ INPCK ||| ISTRIP := by decide
  unfold InputFollows at follows ⊢
  rw [same,follows]
  by_cases before : term.cflag &&& PARENB ≠ 0
  · rw [if_pos before]
    by_cases after : other.cflag &&& PARENB ≠ 0
    · rw [if_pos after]
      exact iff_of_true rfl (iff_of_true after before)
    · rw [if_neg after]
      exact iff_of_false apart.symm (fun equal => after (equal.mpr before))
  · rw [if_neg before]
    by_cases after : other.cflag &&& PARENB ≠ 0
    · rw [if_pos after]
      exact iff_of_false apart (fun equal => before (equal.mp after))
    · rw [if_neg after]
      exact iff_of_true rfl (iff_of_false after before)

end Termios

theorem inputFlags_parity (port : SerialPort) (cflag iflag : BitVec 32) :
    port.inputFlags cflag iflag &&& (INPCK ||| ISTRIP) =
      if cflag &&& PARENB ≠ 0 then INPCK ||| ISTRIP else 0 := by
  have later (flags : BitVec 32) : AgreeOn (INPCK ||| ISTRIP)
      ((if port.flowcontrol = SOFTWARE_FLOW then flags ||| BRKINT ||| (IXON ||| IXOFF ||| IXANY)
        else (flags ||| BRKINT) &&& ~~~(IXON ||| IXOFF ||| IXANY)) &&&
          ~~~(INLCR ||| ICRNL ||| IGNCR)) flags := by
    apply (agreeOn_clear (by decide) _).trans
    split
    · exact (agreeOn_set (by decide) _).trans (agreeOn_set (by decide) _)
    · exact (agreeOn_clear (by decide) _).trans (agreeOn_set (by decide) _)
  have checked : (if cflag &&& PARENB ≠ 0 then iflag ||| (INPCK ||| ISTRIP)
      else iflag &&& ~~~(INPCK ||| ISTRIP)) &&& (INPCK ||| ISTRIP) =
        if cflag &&& PARENB ≠ 0 then INPCK ||| ISTRIP else 0 := by
    split
    · exact and_raised _ _
    · exact and_cleared _ _
  exact Eq.trans (later _) checked

theorem configure_follows (port : SerialPort) (term : Termios) :
    (port.configure term).InputFollows :=
  inputFlags_parity port _ _

theorem serialInitTermios_done {port : SerialPort} {oldSetting newSetting : Termios}
    {device : SerialDevice} (done : (serialInitTermios port oldSetting newSetting device).1 = 0) :
    (serialInitTermios port oldSetting newSetting device).2.term = port.configure device.term := by
  have failure : (-1 : Int) ≠ 0 := by decide
  obtain ⟨term,outcomes⟩ := device
  match outcomes,done with
  | [],_ | [true],_ | [true,true],_ | true::true::true::_,_ => rfl
  | false::_,done => exact absurd done failure
  | true::false::_,done => exact absurd done failure
  | true::true::false::_,done => exact absurd done failure

namespace Setting
open SerialDevice

/-- Both terminal calls that a setter makes are going to succeed. -/
def Answered (device : SerialDevice) : Prop :=
  device.outcomes.headD true = true ∧ device.outcomes.tail.headD true = true

instance (device : SerialDevice) : Decidable (Answered device) :=
  inferInstanceAs (Decidable (_ ∧ _))

theorem set_term (setting : Setting) (value : Nat) (device : SerialDevice) :
    (setting.set value device).2.term =
      if Answered device then setting.change value device.term else device.term := by
  have stored (change : Termios → Termios) : (setSetting change device).2.term =
      if Answered device then change device.term else device.term := by
    obtain ⟨term,outcomes⟩ := device
    match outcomes with
    | [] | [true] | true::true::_ | true::false::_ | false::_ => rfl
  cases setting with
  | baudrate | datasize | parity | stopsize => exact stored _

theorem change_iflag (setting : Setting) (value : Nat) (term : Termios) :
    (setting.change value term).iflag = term.iflag := by
  cases setting with
  | baudrate | datasize => rfl
  | parity =>
    change (term.withParity value).iflag = _
    unfold Termios.withParity
    split_ifs
    · rfl
    · rfl
    · rfl
    · rfl
  | stopsize =>
    change (term.withStopsize value).iflag = _
    unfold Termios.withStopsize
    split_ifs
    · rfl
    · rfl
    · rfl

/-- The requests that leave the parity flag as it is. -/
def KeepsParity (term : Termios) : Setting → Nat → Prop
  | baudrate,_ | datasize,_ => True
  | parity,value =>
    ¬(value = CPC_PARITY_MARK ∨ value = CPC_PARITY_SPACE) →
      (value = CPC_PARITY_ODD ∨ value = CPC_PARITY_EVEN ↔ term.cflag &&& PARENB ≠ 0)
  | stopsize,value => value = CPC_STOPSIZE_2BITS → term.cflag &&& PARENB = 0

theorem withParity_enabled (value : Nat) (term : Termios) :
    (term.withParity value).cflag &&& PARENB ≠ 0 ↔
      if value = CPC_PARITY_MARK ∨ value = CPC_PARITY_SPACE then term.cflag &&& PARENB ≠ 0
      else value = CPC_PARITY_ODD ∨ value = CPC_PARITY_EVEN := by
  have none : (term.withParity value).parity ≠ CPC_PARITY_NONE ↔
      (term.withParity value).cflag &&& PARENB ≠ 0 :=
    not_congr (Termios.parity_none_iff _)
  rw [← none]
  by_cases ignored : value = CPC_PARITY_MARK ∨ value = CPC_PARITY_SPACE
  · have same : term.withParity value = term := by
      obtain rfl | rfl := ignored
      · rfl
      · rfl
    rw [if_pos ignored,same]
    exact not_congr (Termios.parity_none_iff term)
  · rw [if_neg ignored,(parity_effective_iff term value).mpr fun unset => absurd unset ignored]
    unfold canonical CPC_PARITY_NONE CPC_PARITY_ODD CPC_PARITY_EVEN
    dsimp only
    split
    · omega
    · omega

theorem keepsParity_iff (setting : Setting) (value : Nat) (term : Termios) :
    ((setting.change value term).cflag &&& PARENB ≠ 0 ↔ term.cflag &&& PARENB ≠ 0) ↔
      KeepsParity term setting value := by
  have unchanged {other : Termios} (same : AgreeOn PARENB other.cflag term.cflag) :
      other.cflag &&& PARENB ≠ 0 ↔ term.cflag &&& PARENB ≠ 0 :=
    iff_of_eq (congrArg (· ≠ 0) same)
  cases setting with
  | baudrate =>
    exact iff_of_true (unchanged (Termios.withBaudrate_agree (by decide) value term)) trivial
  | datasize =>
    exact iff_of_true (unchanged (Termios.withDatasize_agree (by decide) value term)) trivial
  | parity =>
    change ((term.withParity value).cflag &&& PARENB ≠ 0 ↔ _) ↔ _
    rw [withParity_enabled]
    split
    · rename_i ignored
      exact iff_of_true Iff.rfl (fun heeded => absurd ignored heeded)
    · rename_i heeded
      exact ⟨fun same _ => same,fun same => same heeded⟩
  | stopsize =>
    by_cases two : value = CPC_STOPSIZE_2BITS
    · have cleared : (term.withStopsize value).cflag &&& PARENB = 0 := by
        unfold Termios.withStopsize
        rw [if_pos two]
        change term.cflag &&& CSTOPB &&& PARENB = 0
        rw [BitVec.and_assoc]
        exact BitVec.and_zero
      change ((term.withStopsize value).cflag &&& PARENB ≠ 0 ↔ _) ↔ _
      rw [cleared]
      constructor
      · intro same _
        exact not_not.mp fun on => same.mpr on rfl
      · intro off
        exact iff_of_false (fun on => on rfl) (fun on => on (off two))
    · exact iff_of_true (unchanged (Termios.withStopsize_agree (by decide) two term))
        (fun same => absurd same two)

/-- One request for a line setting. -/
def setStep (device : SerialDevice) (request : Setting × Nat) : SerialDevice :=
  (request.1.set request.2 device).2

def ParityKept (device : SerialDevice) (request : Setting × Nat) : Prop :=
  Answered device → KeepsParity device.term request.1 request.2

theorem setStep_follows {device : SerialDevice} (follows : device.term.InputFollows)
    (request : Setting × Nat) :
    (setStep device request).term.InputFollows ↔ ParityKept device request := by
  unfold setStep ParityKept
  rw [set_term]
  split
  · rename_i answered
    rw [Termios.inputFollows_iff follows (change_iflag _ _ _),keepsParity_iff]
    exact ⟨fun kept _ => kept,fun kept => kept answered⟩
  · rename_i failing
    exact iff_of_true follows (fun answered => absurd answered failing)

/-- After the port has been set up the input flags follow the parity flag through all
requests exactly when none of them changes the parity flag. -/
theorem input_parity_iff (port : SerialPort) (oldSetting newSetting : Termios)
    (device : SerialDevice) (done : (serialInitTermios port oldSetting newSetting device).1 = 0)
    (requests : List (Setting × Nat)) :
    Machine.Throughout setStep (fun device => device.term.InputFollows)
        (serialInitTermios port oldSetting newSetting device).2 requests ↔
      Machine.Along setStep ParityKept (serialInitTermios port oldSetting newSetting device).2
        requests := by
  have start : (serialInitTermios port oldSetting newSetting device).2.term.InputFollows := by
    rw [serialInitTermios_done done]
    exact configure_follows port device.term
  have kept (device : SerialDevice) (request : Setting × Nat) (_ : True)
      (follows : device.term.InputFollows) (_ : True) :
      (setStep device request).term.InputFollows ↔ ParityKept device request :=
    setStep_follows follows request
  exact Machine.throughout_iff_along (fun _ => True) (fun device => device.term.InputFollows)
    (fun _ _ => True) ParityKept (fun _ _ _ _ => trivial) kept trivial start
    (Machine.along_of_forall _ fun _ _ => trivial)

/-- Eight data bits without parity, and the client sets the speed and two stop bits. -/
theorem input_parity_iff_requests : let port : SerialPort :=
      ⟨⟨none,none⟩,9600,8,PARITY_NONE,SOFTWARE_FLOW,true,true⟩
    Machine.Throughout setStep (fun device => device.term.InputFollows)
      (serialInitTermios port ⟨0,0,0,0⟩ ⟨0,0,0,0⟩ ⟨⟨0,0,0xBD,0⟩,[]⟩).2
      [(baudrate,19200),(stopsize,CPC_STOPSIZE_2BITS)] := by
  intro port
  refine (input_parity_iff port ⟨0,0,0,0⟩ ⟨0,0,0,0⟩ ⟨⟨0,0,0xBD,0⟩,[]⟩ (by decide) _).mpr ?_
  exact ⟨fun _ => trivial,fun _ _ => by decide,trivial⟩

/-- A port with even parity, and the client asks for none: the eighth bit is still stripped. -/
theorem strip_without_parity : ¬∀ (port : SerialPort) (oldSetting newSetting : Termios)
    (device : SerialDevice), (serialInitTermios port oldSetting newSetting device).1 = 0 →
    ∀ requests : List (Setting × Nat),
      Machine.Throughout setStep (fun device => device.term.InputFollows)
        (serialInitTermios port oldSetting newSetting device).2 requests := by
  intro always
  obtain ⟨_,last⟩ := always ⟨⟨none,none⟩,9600,8,PARITY_EVEN,SOFTWARE_FLOW,true,true⟩ ⟨0,0,0,0⟩
    ⟨0,0,0,0⟩ ⟨⟨0,0,0xBD,0⟩,[]⟩ (by decide) [(parity,CPC_PARITY_NONE)]
  change Termios.InputFollows _ at last
  exact absurd last (by decide)

end Setting
end SerialIp
