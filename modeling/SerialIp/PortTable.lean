import SerialIp.ReadConfiguration

/-! Adding a serial port to the table. There are two allocations, and the port is already
counted when the second one is made. -/
namespace SerialIp

/-- With 0 the table has one more entry at its end, which is the new port; with 1 it is
as it was. -/
structure AllOrNothing (devicePath : List UInt8) (conf : Config) (error : Bool) (after : Config) :
    Prop where
  added : error = false → ∃ port, after.ports = conf.ports ++ [port] ∧ port.device = some devicePath
  inRange : error = false → after.ports.length-1 < MAX_SPORTS ∧
    ∃ port, after.ports[after.ports.length-1]? = some port ∧ port.device = some devicePath
  refused : error = true → after.ports = conf.ports

def Refused (conf : Config) (devicePath : List UInt8) : Prop :=
  devicePath = [] ∨ MAX_SPORTS ≤ conf.ports.length

def BothGranted (allocs : List Bool) : Prop :=
  (allocate allocs).1 = true ∧ (allocate (allocate allocs).2).1 = true

section
variable {conf : Config} {devicePath : List UInt8} {allocs : List Bool}

theorem addSerialPortInfo_refused (refused : Refused conf devicePath) :
    addSerialPortInfo conf devicePath allocs = (true,conf,allocs) := by
  unfold addSerialPortInfo
  by_cases empty : devicePath = []
  · rw [if_pos empty]
  · rw [if_neg empty,if_pos (refused.resolve_left empty)]

/-- Past its checks the function returns 1 only when strdup fails, and counts the port
whenever calloc does not. -/
theorem addSerialPortInfo_allocates (passed : ¬Refused conf devicePath) :
    (addSerialPortInfo conf devicePath allocs).1 =
        ((allocate allocs).1 && !(allocate (allocate allocs).2).1) ∧
      (addSerialPortInfo conf devicePath allocs).2.1.ports =
        if (allocate allocs).1 then
          conf.ports ++ [{allocSerialPort with
            device := if (allocate (allocate allocs).2).1 then some devicePath else none}]
        else conf.ports := by
  obtain ⟨some,room⟩ := not_or.mp passed
  unfold addSerialPortInfo strdup
  rw [if_neg some,if_neg room]
  dsimp only
  cases (allocate allocs).1 with
  | false => exact ⟨rfl,rfl⟩
  | true => cases (allocate (allocate allocs).2).1 <;> exact ⟨rfl,rfl⟩

end

/-- Adding a port is all or nothing if and only if it is refused at once or both
allocations succeed. -/
theorem all_or_nothing_iff (conf : Config) (devicePath : List UInt8) (allocs : List Bool) :
    AllOrNothing devicePath conf (addSerialPortInfo conf devicePath allocs).1
        (addSerialPortInfo conf devicePath allocs).2.1 ↔
      Refused conf devicePath ∨ BothGranted allocs := by
  by_cases refused : Refused conf devicePath
  · rw [addSerialPortInfo_refused refused]
    exact iff_of_true ⟨nofun,nofun,fun _ => rfl⟩ (Or.inl refused)
  obtain ⟨error,ports⟩ := @addSerialPortInfo_allocates conf devicePath allocs refused
  have room : conf.ports.length < MAX_SPORTS := not_le.mp fun full => refused (Or.inr full)
  rw [error,or_iff_right refused]
  unfold BothGranted
  cases counted : (allocate allocs).1 with
  | false =>
    rw [counted] at ports
    -- nothing is added, and the function returns 0 all the same
    refine iff_of_false (fun whole => ?_) (fun granted => Bool.false_ne_true granted.1)
    obtain ⟨port,grown,_⟩ := whole.added rfl
    have longer := congrArg List.length (ports.symm.trans grown)
    simp at longer
  | true =>
    rw [counted] at ports
    cases named : (allocate (allocate allocs).2).1 with
    | false =>
      rw [named] at ports
      -- the port without a name stays counted behind the 1
      refine iff_of_false (fun whole => ?_) (fun granted => Bool.false_ne_true granted.2)
      have longer := congrArg List.length (ports.symm.trans (whole.refused rfl))
      simp at longer
    | true =>
      rw [named] at ports
      refine iff_of_true ⟨fun _ => ⟨_,ports,rfl⟩,fun _ => ?_,nofun⟩ ⟨rfl,rfl⟩
      rw [ports,if_pos rfl,List.length_append,List.length_singleton,Nat.add_sub_cancel]
      exact ⟨room,_,List.getElem?_concat_length,rfl⟩

theorem port_not_added : ¬∀ (conf : Config) (devicePath : List UInt8) (allocs : List Bool),
    AllOrNothing devicePath conf (addSerialPortInfo conf devicePath allocs).1
      (addSerialPortInfo conf devicePath allocs).2.1 := by
  intro always
  obtain ⟨port,grown,_⟩ := (always .initial (ascii "/dev/ttyS0") [false]).added rfl
  exact absurd grown nofun

end SerialIp
