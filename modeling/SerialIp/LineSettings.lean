import SerialIp.Library.Mask
import SerialIp.Termios

/-! The four line settings side by side. They share the flag word, and each getter
reads its own bits of it, so a change is told to the others by the bits it touches. -/
namespace SerialIp
open Library.Mask

namespace Termios
variable {term other : Termios}

theorem baudrate_agree (same : AgreeOn CBAUD other.cflag term.cflag) :
    other.baudrate = term.baudrate := by
  unfold baudrate cfgetospeed
  rw [same]

theorem datasize_agree (same : AgreeOn CSIZE other.cflag term.cflag) :
    other.datasize = term.datasize := by
  unfold datasize
  rw [same]

theorem parity_agree (enabled : AgreeOn PARENB other.cflag term.cflag)
    (odd : AgreeOn PARODD other.cflag term.cflag) : other.parity = term.parity := by
  unfold parity
  rw [enabled,odd]

theorem stopsize_agree (same : AgreeOn CSTOPB other.cflag term.cflag) :
    other.stopsize = term.stopsize := by
  unfold stopsize
  rw [same]

theorem stopsize_cleared (word : BitVec 32) (term : Termios) :
    {term with cflag := word &&& ~~~CSTOPB}.stopsize = CPC_STOPSIZE_1BIT := by
  have cleared : word &&& ~~~CSTOPB &&& CSTOPB = 0 := by
    rw [BitVec.and_assoc]
    exact BitVec.and_zero
  unfold stopsize
  rw [if_neg (not_not.mpr cleared)]

theorem ulong2speedT_inside (value : Nat) : ulong2speedT value &&& ~~~CBAUD = 0 := by
  have inside : ∀ entry ∈ speeds, entry.2 &&& ~~~CBAUD = 0 := by decide
  unfold ulong2speedT
  cases found : speeds.find? fun entry => entry.1 = value with
  | none => decide
  | some entry => exact inside entry (List.mem_of_find?_eq_some found)

/-- Every bit outside the speed field is kept. -/
theorem withBaudrate_agree {mask : BitVec 32} (apart : CBAUD &&& mask = 0) (value : Nat)
    (term : Termios) : AgreeOn mask (term.withBaudrate value).cflag term.cflag := by
  have speed : ulong2speedT value &&& mask = 0 := by
    apply BitVec.eq_of_getLsbD_eq
    intro i bound
    have within := congrArg (fun word => word.getLsbD i) (ulong2speedT_inside value)
    have outside := congrArg (fun word => word.getLsbD i) apart
    simp only [BitVec.getLsbD_and,BitVec.getLsbD_not] at within outside ⊢
    cases bit : (ulong2speedT value).getLsbD i <;> simp_all
  exact (agreeOn_set speed _).trans (agreeOn_clear apart _)

theorem withDatasize_agree {mask : BitVec 32} (apart : CSIZE &&& mask = 0) (value : Nat)
    (term : Termios) : AgreeOn mask (term.withDatasize value).cflag term.cflag := by
  have inside {bits : BitVec 32} (within : bits &&& CSIZE = bits) : bits &&& mask = 0 := by
    rw [← within,BitVec.and_assoc,apart]
    exact BitVec.and_zero
  have sized {bits : BitVec 32} (within : bits &&& CSIZE = bits) :
      AgreeOn mask ((term.cflag &&& ~~~CSIZE) ||| bits) term.cflag :=
    (agreeOn_set (inside within) _).trans (agreeOn_clear apart _)
  unfold withDatasize
  dsimp only
  split_ifs
  · exact sized (by decide)
  · exact sized (by decide)
  · exact sized (by decide)
  · exact sized (by decide)
  · exact sized (by decide)

theorem withParity_agree {mask : BitVec 32} (enable : PARENB &&& mask = 0)
    (odd : PARODD &&& mask = 0) (stop : CSTOPB &&& mask = 0) (value : Nat) (term : Termios) :
    AgreeOn mask (term.withParity value).cflag term.cflag := by
  unfold withParity
  split_ifs
  · exact (agreeOn_clear stop _).trans ((agreeOn_set odd _).trans (agreeOn_set enable _))
  · exact (agreeOn_clear stop _).trans ((agreeOn_clear odd _).trans (agreeOn_set enable _))
  · exact AgreeOn.refl mask _
  · exact (agreeOn_clear stop _).trans (agreeOn_clear enable _)

/-- A parity other than mark and space comes with one stop bit. -/
theorem withParity_stopsize (value : Nat) (term : Termios) : (term.withParity value).stopsize =
    if value = CPC_PARITY_MARK ∨ value = CPC_PARITY_SPACE then term.stopsize
    else CPC_STOPSIZE_1BIT := by
  unfold withParity
  by_cases odd : value = CPC_PARITY_ODD
  · rw [if_pos odd,if_neg (by rw [odd]; decide)]
    exact stopsize_cleared _ term
  · rw [if_neg odd]
    by_cases even : value = CPC_PARITY_EVEN
    · rw [if_pos even,if_neg (by rw [even]; decide)]
      exact stopsize_cleared _ term
    · rw [if_neg even]
      split
      · rfl
      · exact stopsize_cleared _ term

theorem withStopsize_agree {mask : BitVec 32} (stop : CSTOPB &&& mask = 0) {value : Nat}
    (apart : value ≠ CPC_STOPSIZE_2BITS) (term : Termios) :
    AgreeOn mask (term.withStopsize value).cflag term.cflag := by
  unfold withStopsize
  rw [if_neg apart]
  split
  · exact AgreeOn.refl mask _
  · exact agreeOn_clear stop _

end Termios

namespace SerialDevice

/-- Every terminal call to come succeeds. -/
def Succeeds (device : SerialDevice) : Prop := ∀ outcome ∈ device.outcomes, outcome = true

theorem Succeeds.next {device : SerialDevice} (succeeds : device.Succeeds) :
    device.outcomes.headD true = true := by
  cases outcomes : device.outcomes with
  | nil => rfl
  | cons outcome rest => exact succeeds outcome (outcomes ▸ List.mem_cons_self)

theorem Succeeds.later {device : SerialDevice} (succeeds : device.Succeeds) (term : Termios) :
    Succeeds ⟨term,device.outcomes.tail⟩ :=
  fun outcome member => succeeds outcome (List.mem_of_mem_tail member)

theorem tcgetattr_succeeds {device : SerialDevice} (succeeds : device.Succeeds) :
    device.tcgetattr = (some device.term,⟨device.term,device.outcomes.tail⟩) :=
  if_pos succeeds.next

theorem tcsetattr_succeeds {device : SerialDevice} (succeeds : device.Succeeds) (term : Termios) :
    device.tcsetattr term = (0,⟨term,device.outcomes.tail⟩) :=
  if_pos succeeds.next

theorem getSetting_succeeds {device : SerialDevice} (succeeds : device.Succeeds)
    (reading : Termios → Nat) (fallback : Nat) :
    device.getSetting reading fallback = (reading device.term,⟨device.term,device.outcomes.tail⟩) := by
  unfold getSetting
  rw [tcgetattr_succeeds succeeds]

theorem setSetting_succeeds {device : SerialDevice} (succeeds : device.Succeeds)
    (change : Termios → Termios) :
    device.setSetting change = (0,⟨change device.term,device.outcomes.tail.tail⟩) := by
  unfold setSetting
  rw [tcgetattr_succeeds succeeds]
  exact tcsetattr_succeeds (succeeds.later device.term) _

end SerialDevice

inductive Setting
  | baudrate
  | datasize
  | parity
  | stopsize
  deriving DecidableEq

namespace Setting
open SerialDevice

def get : Setting → SerialDevice → Nat × SerialDevice
  | baudrate => getBaudrate
  | datasize => getDatasize
  | parity => getParity
  | stopsize => getStopsize

def set : Setting → Nat → SerialDevice → Int × SerialDevice
  | baudrate => setBaudrate
  | datasize => setDatasize
  | parity => setParity
  | stopsize => setStopsize

def reading : Setting → Termios → Nat
  | baudrate => Termios.baudrate
  | datasize => Termios.datasize
  | parity => Termios.parity
  | stopsize => Termios.stopsize

def change : Setting → Nat → Termios → Termios
  | baudrate => Termios.withBaudrate
  | datasize => Termios.withDatasize
  | parity => Termios.withParity
  | stopsize => Termios.withStopsize

theorem get_succeeds (setting : Setting) {device : SerialDevice} (succeeds : device.Succeeds) :
    (setting.get device).1 = setting.reading device.term := by
  cases setting with
  | baudrate | datasize | parity | stopsize =>
    exact congrArg Prod.fst (getSetting_succeeds succeeds _ _)

theorem set_succeeds (setting : Setting) (value : Nat) {device : SerialDevice}
    (succeeds : device.Succeeds) : (setting.set value device).2 =
      ⟨setting.change value device.term,device.outcomes.tail.tail⟩ := by
  cases setting with
  | baudrate | datasize | parity | stopsize =>
    exact congrArg Prod.snd (setSetting_succeeds succeeds _)

/-- What one change does to the readings of the other settings. -/
theorem change_reading (changed other : Setting) (value : Nat) (term : Termios)
    (different : other ≠ changed)
    (apart : ¬(changed = stopsize ∧ value = CPC_STOPSIZE_2BITS)) :
    other.reading (changed.change value term) =
      if changed = parity ∧ other = stopsize ∧
          ¬(value = CPC_PARITY_MARK ∨ value = CPC_PARITY_SPACE) then CPC_STOPSIZE_1BIT
      else other.reading term := by
  cases changed with
  | baudrate =>
    have keeps {mask : BitVec 32} (outside : CBAUD &&& mask = 0) :=
      Termios.withBaudrate_agree outside value term
    rw [if_neg (by simp)]
    cases other with
    | baudrate => exact absurd rfl different
    | datasize => exact Termios.datasize_agree (keeps (by decide))
    | parity => exact Termios.parity_agree (keeps (by decide)) (keeps (by decide))
    | stopsize => exact Termios.stopsize_agree (keeps (by decide))
  | datasize =>
    have keeps {mask : BitVec 32} (outside : CSIZE &&& mask = 0) :=
      Termios.withDatasize_agree outside value term
    rw [if_neg (by simp)]
    cases other with
    | baudrate => exact Termios.baudrate_agree (keeps (by decide))
    | datasize => exact absurd rfl different
    | parity => exact Termios.parity_agree (keeps (by decide)) (keeps (by decide))
    | stopsize => exact Termios.stopsize_agree (keeps (by decide))
  | parity =>
    cases other with
    | baudrate =>
      rw [if_neg (by simp)]
      exact Termios.baudrate_agree
        (Termios.withParity_agree (by decide) (by decide) (by decide) value term)
    | datasize =>
      rw [if_neg (by simp)]
      exact Termios.datasize_agree
        (Termios.withParity_agree (by decide) (by decide) (by decide) value term)
    | parity => exact absurd rfl different
    | stopsize =>
      have stop := Termios.withParity_stopsize value term
      by_cases unset : value = CPC_PARITY_MARK ∨ value = CPC_PARITY_SPACE
      · rw [if_pos unset] at stop
        rw [if_neg (fun all => all.2.2 unset)]
        exact stop
      · rw [if_neg unset] at stop
        rw [if_pos ⟨rfl,rfl,unset⟩]
        exact stop
  | stopsize =>
    have keeps {mask : BitVec 32} (outside : CSTOPB &&& mask = 0) :=
      Termios.withStopsize_agree outside (fun two => apart ⟨rfl,two⟩) term
    rw [if_neg (by simp)]
    cases other with
    | baudrate => exact Termios.baudrate_agree (keeps (by decide))
    | datasize => exact Termios.datasize_agree (keeps (by decide))
    | parity => exact Termios.parity_agree (keeps (by decide)) (keeps (by decide))
    | stopsize => exact absurd rfl different

/-- Speed and data bits are set without an effect on the other settings. A parity
brings one stop bit with it unless it is mark or space, which are ignored. -/
theorem settings_independent (device : SerialDevice) (succeeds : device.Succeeds)
    (changed other : Setting) (value : Nat) (different : other ≠ changed)
    (apart : ¬(changed = stopsize ∧ value = CPC_STOPSIZE_2BITS)) :
    (other.get (changed.set value device).2).1 =
      if changed = parity ∧ other = stopsize ∧
          ¬(value = CPC_PARITY_MARK ∨ value = CPC_PARITY_SPACE) then CPC_STOPSIZE_1BIT
      else (other.get device).1 := by
  have after := (succeeds.later device.term).later (changed.change value device.term)
  rw [set_succeeds changed value succeeds,get_succeeds other after,get_succeeds other succeeds]
  exact change_reading changed other value device.term different apart

/-- 9600 baud, 8 data bits, no parity, two stop bits: even parity sets one. -/
theorem settings_independent_even :
    (stopsize.get (parity.set CPC_PARITY_EVEN ⟨⟨0,0,0xFD,0⟩,[]⟩).2).1 = CPC_STOPSIZE_1BIT :=
  settings_independent ⟨⟨0,0,0xFD,0⟩,[]⟩ (fun _ member => absurd member List.not_mem_nil)
    parity stopsize CPC_PARITY_EVEN (by decide) (by decide)

theorem parity_changes_stopsize :
    ¬∀ (device : SerialDevice) (changed other : Setting) (value : Nat), device.Succeeds →
      other ≠ changed → (other.get (changed.set value device).2).1 = (other.get device).1 := by
  intro always
  have kept := always ⟨⟨0,0,0xFD,0⟩,[]⟩ parity stopsize CPC_PARITY_EVEN
    (fun _ member => absurd member List.not_mem_nil) (by decide)
  exact absurd kept (by decide)

end Setting
end SerialIp
