import Mathlib.Logic.Function.Basic
import SerialIp.HonestReply
import SerialIp.SettingEffect

/-! The serial line as a client sees it: one value for each of the four settings. A request
about one of them does to these values what the setters make of the flag word. -/
namespace SerialIp
open Library.Mask

abbrev Registers := Setting → Nat

namespace Registers

def of (term : Termios) : Registers := fun setting => setting.reading term

/-- A parity brings one stop bit with it; two stop bits clear everything but the stop bit. -/
def assign (setting : Setting) (value : Nat) (r : Registers) : Registers :=
  match setting with
  | .baudrate => Function.update r .baudrate (Setting.canonical .baudrate value)
  | .datasize => Function.update r .datasize (Setting.canonical .datasize value)
  | .parity =>
    if value = CPC_PARITY_MARK ∨ value = CPC_PARITY_SPACE then r
    else Function.update (Function.update r .parity (Setting.canonical .parity value)) .stopsize
      CPC_STOPSIZE_1BIT
  | .stopsize =>
    if value = CPC_STOPSIZE_2BITS then
      Function.update (Registers.of ⟨0,0,0,0⟩) .stopsize (r .stopsize)
    else if value = CPC_STOPSIZE_15BITS then r
    else Function.update r .stopsize CPC_STOPSIZE_1BIT

/-- A request by the client: the value that asks for the setting changes nothing. -/
def request (setting : Setting) (value : Nat) (r : Registers) : Registers :=
  if value = setting.asking then r else r.assign setting value

end Registers

namespace Termios
variable (value : Nat) (term : Termios)

theorem withParity_parity (other : ¬(value = CPC_PARITY_MARK ∨ value = CPC_PARITY_SPACE)) :
    (term.withParity value).parity = Setting.parity.canonical value := by
  apply (Setting.parity_effective_iff term value).mpr
  exact fun unset => absurd unset other

theorem withStopsize_one (two : value ≠ CPC_STOPSIZE_2BITS) (half : value ≠ CPC_STOPSIZE_15BITS) :
    (term.withStopsize value).stopsize = CPC_STOPSIZE_1BIT := by
  unfold withStopsize
  rw [if_neg two,if_neg half]
  exact stopsize_cleared _ term

/-- Two stop bits leave a word without a bit outside CSTOPB. -/
theorem withStopsize_two {mask : BitVec 32} (apart : CSTOPB &&& mask = 0) :
    AgreeOn mask (term.withStopsize CPC_STOPSIZE_2BITS).cflag (⟨0,0,0,0⟩ : Termios).cflag := by
  unfold withStopsize AgreeOn
  rw [if_pos rfl]
  change term.cflag &&& CSTOPB &&& mask = 0 &&& mask
  rw [BitVec.and_assoc,apart]
  simp

end Termios

namespace Registers

/-- Away from the setting, and from the request that clears the word, only a parity shows. -/
theorem of_change_other (setting other : Setting) (value : Nat) (term : Termios)
    (different : other ≠ setting)
    (apart : ¬(setting = .stopsize ∧ value = CPC_STOPSIZE_2BITS)) :
    of (setting.change value term) other = (of term).assign setting value other := by
  change other.reading (setting.change value term) = _
  rw [Setting.change_reading setting other value term different apart]
  cases setting with
  | baudrate | datasize =>
    rw [if_neg (by simp)]
    simp only [assign]
    rw [Function.update_of_ne different]
    rfl
  | parity =>
    by_cases unset : value = CPC_PARITY_MARK ∨ value = CPC_PARITY_SPACE
    · simp only [assign,if_pos unset]
      rw [if_neg (fun all => all.2.2 unset)]
      rfl
    · simp only [assign,if_neg unset]
      by_cases stop : other = .stopsize
      · rw [if_pos ⟨trivial,stop,unset⟩,stop,Function.update_self]
      · rw [if_neg (fun all => stop all.2.1),Function.update_of_ne stop,
          Function.update_of_ne different]
        rfl
  | stopsize =>
    have two : ¬value = CPC_STOPSIZE_2BITS := fun two => apart ⟨rfl,two⟩
    simp only [assign,if_neg two]
    rw [if_neg (by simp)]
    split
    · rfl
    · rw [Function.update_of_ne different]
      rfl

theorem of_change_two (other : Setting) (term : Termios) :
    of (term.withStopsize CPC_STOPSIZE_2BITS) other =
      (of term).assign .stopsize CPC_STOPSIZE_2BITS other := by
  simp only [assign,if_true]
  by_cases stop : other = .stopsize
  · rw [stop,Function.update_self]
    apply Termios.stopsize_agree
    change term.cflag &&& CSTOPB &&& CSTOPB = term.cflag &&& CSTOPB
    rw [BitVec.and_assoc,BitVec.and_self]
  · rw [Function.update_of_ne stop]
    have zero {mask : BitVec 32} (apart : CSTOPB &&& mask = 0) := Termios.withStopsize_two term apart
    cases other with
    | baudrate => exact Termios.baudrate_agree (zero (by decide))
    | datasize => exact Termios.datasize_agree (zero (by decide))
    | parity => exact Termios.parity_agree (zero (by decide)) (zero (by decide))
    | stopsize => exact absurd rfl stop

theorem of_change_same (setting : Setting) (value : Nat) (term : Termios)
    (apart : ¬(setting = .stopsize ∧ value = CPC_STOPSIZE_2BITS)) :
    of (setting.change value term) setting = (of term).assign setting value setting := by
  cases setting with
  | baudrate =>
    simp only [assign,Function.update_self]
    exact Termios.withBaudrate_baudrate value term
  | datasize =>
    simp only [assign,Function.update_self]
    exact Termios.withDatasize_datasize value term
  | parity =>
    simp only [assign]
    split
    · rename_i unset
      have same : term.withParity value = term := by
        obtain rfl | rfl := unset <;> rfl
      exact congrArg Termios.parity same
    · rename_i other
      rw [Function.update_of_ne (by decide),Function.update_self]
      exact Termios.withParity_parity value term other
  | stopsize =>
    have two : ¬value = CPC_STOPSIZE_2BITS := fun two => apart ⟨rfl,two⟩
    simp only [assign,if_neg two]
    split
    · rename_i half
      have same : term.withStopsize value = term := by
        rw [half]
        rfl
      exact congrArg Termios.stopsize same
    · rename_i half
      rw [Function.update_self]
      exact Termios.withStopsize_one value term two half

/-- The setters do to the readings what the registers say, whatever the flags were. -/
theorem of_change (setting : Setting) (value : Nat) (term : Termios) :
    of (setting.change value term) = (of term).assign setting value := by
  funext other
  by_cases apart : setting = .stopsize ∧ value = CPC_STOPSIZE_2BITS
  · obtain ⟨rfl,rfl⟩ := apart
    exact of_change_two other term
  · by_cases same : other = setting
    · rw [same]
      exact of_change_same setting value term apart
    · exact of_change_other setting other value term same apart

end Registers

namespace Setting

/-- The answer to a request about a setting: the value of the register afterwards, in as many
bytes as the setting has. -/
def answer (setting : Setting) (r : Registers) : List UInt8 :=
  bigEndian setting.width (r setting)

theorem respond_registers (setting : Setting) (value : Nat) {s : Session}
    (succeeds : s.device.Succeeds) : ∃ device : SerialDevice, device.Succeeds ∧
      Registers.of device.term = (Registers.of s.device.term).request setting value ∧
      (setting.respond value s).2 = (sendTelnetCpcSuboption setting.reply
        (setting.answer (Registers.of device.term)) {s with device := device}).2 := by
  unfold respond respondSetting
  dsimp only
  split
  · rename_i asked
    rw [setting.get_eq succeeds]
    refine ⟨_,succeeds.later s.device.term,?_,rfl⟩
    rw [Registers.request,if_pos asked]
  · rename_i other
    have set := (succeeds.later s.device.term).later (setting.change value s.device.term)
    rw [setting.set_succeeds value succeeds,setting.get_eq set]
    refine ⟨_,set.later _,?_,rfl⟩
    rw [Registers.request,if_neg other]
    exact Registers.of_change setting value s.device.term

end Setting
end SerialIp
