import SerialIp.LineSettings

/-! What a getter says after the matching setter has succeeded (serial_handle.c). The
speed and the data bits always come out as asked for; the parity and the stop bits do
from some flag words only. -/
namespace SerialIp
open Library.Mask

namespace Termios
variable (value : Nat) (term : Termios)

theorem speedT2ulong_ulong2speedT : speedT2ulong (ulong2speedT value) =
    if speeds.any fun entry => entry.1 = value then value else 9600 := by
  have each : ∀ entry ∈ speeds, speedT2ulong (ulong2speedT entry.1) = entry.1 := by decide
  split
  · rename_i known
    obtain ⟨entry,member,same⟩ := List.any_eq_true.mp known
    have same : entry.1 = value := of_decide_eq_true same
    rw [← same]
    exact each entry member
  · rename_i foreign
    have missing : (speeds.find? fun entry => entry.1 = value) = none := by
      apply List.find?_eq_none.mpr
      intro entry member same
      exact foreign (List.any_eq_true.mpr ⟨entry,member,same⟩)
    unfold ulong2speedT
    rw [missing]
    decide

theorem withBaudrate_baudrate : (term.withBaudrate value).baudrate =
    if speeds.any fun entry => entry.1 = value then value else 9600 := by
  have inside : ulong2speedT value &&& CBAUD = ulong2speedT value := by
    apply BitVec.eq_of_getLsbD_eq
    intro i bound
    have none := congrArg (fun word => word.getLsbD i) (ulong2speedT_inside value)
    simp only [BitVec.getLsbD_and,BitVec.getLsbD_not] at none ⊢
    cases bit : CBAUD.getLsbD i <;> simp_all
  rw [← speedT2ulong_ulong2speedT]
  exact congrArg speedT2ulong (and_stored inside term.cflag)

theorem withDatasize_datasize : (term.withDatasize value).datasize =
    if 5 ≤ value ∧ value ≤ 8 then value else 8 := by
  have stored {bits : BitVec 32} (inside : bits &&& CSIZE = bits) :=
    and_stored inside term.cflag
  unfold withDatasize datasize
  dsimp only
  by_cases eight : value = CPC_DATASIZE_CS8
  · rw [if_pos eight,stored (by decide),eight]
    decide
  by_cases seven : value = CPC_DATASIZE_CS7
  · rw [if_neg eight,if_pos seven,stored (by decide),seven]
    decide
  by_cases six : value = CPC_DATASIZE_CS6
  · rw [if_neg eight,if_neg seven,if_pos six,stored (by decide),six]
    decide
  by_cases five : value = CPC_DATASIZE_CS5
  · rw [if_neg eight,if_neg seven,if_neg six,if_pos five,stored (by decide),five]
    decide
  · have unsupported : ¬(5 ≤ value ∧ value ≤ 8) := by
      unfold CPC_DATASIZE_CS8 CPC_DATASIZE_CS7 CPC_DATASIZE_CS6 CPC_DATASIZE_CS5 at *
      omega
    rw [if_neg eight,if_neg seven,if_neg six,if_neg five,stored (by decide),if_neg unsupported]
    decide

theorem parity_none_iff : term.parity = CPC_PARITY_NONE ↔ term.cflag &&& PARENB = 0 := by
  unfold parity
  split
  · rename_i enabled
    refine iff_of_false ?_ enabled
    split
    · decide
    · decide
  · rename_i disabled
    exact iff_of_true rfl (not_not.mp disabled)

theorem stopsize_one_iff : term.stopsize = CPC_STOPSIZE_1BIT ↔ term.cflag &&& CSTOPB = 0 := by
  unfold stopsize
  split
  · rename_i two
    exact iff_of_false (by decide) two
  · rename_i one
    exact iff_of_true rfl (not_not.mp one)

theorem stopsize_two_iff : term.stopsize = CPC_STOPSIZE_2BITS ↔ term.cflag &&& CSTOPB ≠ 0 := by
  unfold stopsize
  split
  · rename_i two
    exact iff_of_true rfl two
  · rename_i one
    exact iff_of_false (by decide) one

theorem withParity_odd : (term.withParity CPC_PARITY_ODD).parity = CPC_PARITY_ODD := by
  let flags := (term.cflag ||| PARENB ||| PARODD) &&& ~~~CSTOPB
  have enabled : flags &&& PARENB = PARENB :=
    Eq.trans (AgreeOn.trans (agreeOn_clear (by decide) _) (agreeOn_set (by decide) _))
      (and_raised PARENB term.cflag)
  have odd : flags &&& PARODD = PARODD :=
    Eq.trans (agreeOn_clear (by decide) _) (and_raised PARODD _)
  change (if flags &&& PARENB ≠ 0 then if flags &&& PARODD ≠ 0 then _ else _ else _) = _
  rw [enabled,odd]
  decide

theorem withParity_even : (term.withParity CPC_PARITY_EVEN).parity = CPC_PARITY_EVEN := by
  let flags := (term.cflag ||| PARENB) &&& ~~~PARODD &&& ~~~CSTOPB
  have enabled : flags &&& PARENB = PARENB :=
    Eq.trans (AgreeOn.trans (agreeOn_clear (by decide) _) (agreeOn_clear (by decide) _))
      (and_raised PARENB term.cflag)
  have even : flags &&& PARODD = 0 :=
    Eq.trans (agreeOn_clear (by decide) _) (and_cleared PARODD _)
  change (if flags &&& PARENB ≠ 0 then if flags &&& PARODD ≠ 0 then _ else _ else _) = _
  rw [enabled,even]
  decide

theorem cleared_parity : {term with cflag := term.cflag &&& ~~~PARENB &&& ~~~CSTOPB}.parity =
    CPC_PARITY_NONE := by
  apply (parity_none_iff _).mpr
  exact Eq.trans (agreeOn_clear (by decide) _) (and_cleared PARENB _)

end Termios

namespace Setting
open SerialDevice

/-- The value a request comes to: itself where the port supports it, else the default. -/
def canonical : Setting → Nat → Nat
  | baudrate,value => if speeds.any fun entry => entry.1 = value then value else 9600
  | datasize,value => if 5 ≤ value ∧ value ≤ 8 then value else 8
  | parity,value =>
    if value = CPC_PARITY_NONE ∨ value = CPC_PARITY_ODD ∨ value = CPC_PARITY_EVEN then value
    else CPC_PARITY_NONE
  | stopsize,value =>
    if value = CPC_STOPSIZE_1BIT ∨ value = CPC_STOPSIZE_2BITS then value else CPC_STOPSIZE_1BIT

/-- The requests that come to what the flags already say, or that the setter carries out. -/
def Effective (term : Termios) : Setting → Nat → Prop
  | baudrate,_ | datasize,_ => True
  | parity,value =>
    value = CPC_PARITY_MARK ∨ value = CPC_PARITY_SPACE → term.cflag &&& PARENB = 0
  | stopsize,value =>
    (value = CPC_STOPSIZE_2BITS → term.cflag &&& CSTOPB ≠ 0) ∧
      (value = CPC_STOPSIZE_15BITS → term.cflag &&& CSTOPB = 0)

theorem parity_effective_iff (term : Termios) (value : Nat) :
    (term.withParity value).parity = parity.canonical value ↔ Effective term parity value := by
  by_cases ignored : value = CPC_PARITY_MARK ∨ value = CPC_PARITY_SPACE
  · have none : parity.canonical value = CPC_PARITY_NONE := by
      obtain rfl | rfl := ignored
      · rfl
      · rfl
    have same : term.withParity value = term := by
      obtain rfl | rfl := ignored
      · rfl
      · rfl
    rw [none,same,Termios.parity_none_iff]
    exact ⟨fun off _ => off,fun off => off ignored⟩
  · refine iff_of_true ?_ (fun unset => absurd unset ignored)
    by_cases odd : value = CPC_PARITY_ODD
    · rw [odd]
      exact term.withParity_odd
    by_cases even : value = CPC_PARITY_EVEN
    · rw [even]
      exact term.withParity_even
    · have off : parity.canonical value = CPC_PARITY_NONE := by
        simp only [canonical,odd,even,or_false]
        exact ite_eq_right_iff.mpr id
      have cleared : term.withParity value =
          {term with cflag := term.cflag &&& ~~~PARENB &&& ~~~CSTOPB} := by
        unfold Termios.withParity
        rw [if_neg odd,if_neg even,if_neg ignored]
      rw [off,cleared]
      exact term.cleared_parity

theorem stopsize_effective_iff (term : Termios) (value : Nat) :
    (term.withStopsize value).stopsize = stopsize.canonical value ↔
      Effective term stopsize value := by
  by_cases two : value = CPC_STOPSIZE_2BITS
  · subst value
    have kept : (term.cflag &&& CSTOPB) &&& CSTOPB = term.cflag &&& CSTOPB := by
      rw [BitVec.and_assoc,BitVec.and_self]
    change (Termios.stopsize {term with cflag := term.cflag &&& CSTOPB}) = CPC_STOPSIZE_2BITS ↔ _
    rw [Termios.stopsize_two_iff,kept]
    exact ⟨fun set => ⟨fun _ => set,nofun⟩,fun both => both.1 rfl⟩
  · have one : stopsize.canonical value = CPC_STOPSIZE_1BIT := by
      simp only [canonical,two,or_false]
      exact ite_eq_right_iff.mpr id
    rw [one,Termios.stopsize_one_iff]
    by_cases between : value = CPC_STOPSIZE_15BITS
    · subst value
      exact ⟨fun clear => ⟨nofun,fun _ => clear⟩,fun both => both.2 rfl⟩
    · have cleared : (term.withStopsize value).cflag = term.cflag &&& ~~~CSTOPB := by
        unfold Termios.withStopsize
        rw [if_neg two,if_neg between]
      rw [cleared]
      exact iff_of_true (and_cleared CSTOPB _)
        ⟨fun same => absurd same two,fun same => absurd same between⟩

theorem effective_iff (setting : Setting) (value : Nat) (term : Termios) :
    setting.reading (setting.change value term) = setting.canonical value ↔
      Effective term setting value := by
  cases setting with
  | baudrate => exact iff_of_true (term.withBaudrate_baudrate value) trivial
  | datasize => exact iff_of_true (term.withDatasize_datasize value) trivial
  | parity => exact parity_effective_iff term value
  | stopsize => exact stopsize_effective_iff term value

/-- A setter that has succeeded has stored what it made of the settings it read. -/
theorem set_done (setting : Setting) (value : Nat) {device : SerialDevice}
    (done : (setting.set value device).1 = 0) :
    (setting.set value device).2.term = setting.change value device.term := by
  have stored (change : Termios → Termios) (done : (setSetting change device).1 = 0) :
      (setSetting change device).2.term = change device.term := by
    have failure : (-1 : Int) ≠ 0 := by decide
    obtain ⟨term,outcomes⟩ := device
    match outcomes,done with
    | [],_ => rfl
    | [true],_ => rfl
    | true::true::_,_ => rfl
    | true::false::_,done => exact absurd done failure
    | false::_,done => exact absurd done failure
  cases setting with
  | baudrate | datasize | parity | stopsize => exact stored _ done

/-- A getter that can read the settings reports what the setter was asked for exactly
for these requests. -/
theorem takes_effect_iff (setting : Setting) (value : Nat) (device : SerialDevice)
    (done : (setting.set value device).1 = 0)
    (readable : ((setting.set value device).2.tcgetattr).1.isSome = true) :
    (setting.get (setting.set value device).2).1 = setting.canonical value ↔
      Effective device.term setting value := by
  have reads : (setting.get (setting.set value device).2).1 =
      setting.reading (setting.set value device).2.term := by
    generalize (setting.set value device).2 = after at readable
    have read (reading : Termios → Nat) (fallback : Nat) :
        (getSetting reading fallback after).1 = reading after.term := by
      obtain ⟨term,outcomes⟩ := after
      match outcomes,readable with
      | [],_ => rfl
      | true::_,_ => rfl
    cases setting with
    | baudrate | datasize | parity | stopsize => exact read _ _
  rw [reads,set_done setting value done]
  exact effective_iff setting value device.term

/-- Two stop bits are kept where they are already set. -/
theorem takes_effect_iff_two :
    (stopsize.get (stopsize.set CPC_STOPSIZE_2BITS ⟨⟨0,0,0xFD,0⟩,[]⟩).2).1 = CPC_STOPSIZE_2BITS :=
  (takes_effect_iff stopsize CPC_STOPSIZE_2BITS ⟨⟨0,0,0xFD,0⟩,[]⟩ (by decide) (by decide)).mpr
    ⟨fun _ => by decide,nofun⟩

/-- At 9600 baud, 8 data bits, no parity and one stop bit, two are asked for. -/
theorem two_bits_without_effect : ¬∀ (setting : Setting) (value : Nat) (device : SerialDevice),
    (setting.set value device).1 = 0 →
      ((setting.set value device).2.tcgetattr).1.isSome = true →
      (setting.get (setting.set value device).2).1 = setting.canonical value := by
  intro always
  have reported := always stopsize CPC_STOPSIZE_2BITS ⟨⟨0,0,0xBD,0⟩,[]⟩ (by decide) (by decide)
  exact absurd reported (by decide)

end Setting
end SerialIp
