import SerialIp.LockDirectory
import SerialIp.SerialPort

/-! The pool of serial ports and the loop of select_serial_port, as a program over its
calls. A call that is made for the device of a port names the port by its index. -/
namespace SerialIp.Pool
open Library Library.Program

/-- A port that the configuration has added, which needs a device for that. -/
structure PooledPort extends SerialPort where
  lockfile : Option Path
  busy : Bool
  named : device ≠ none

inductive PortCall
  | createUucpLockfile (port : Nat)
  | strdup (path : Path)
  | unlockUucpLockfile (port : Nat)
  | openDevice (port : Nat)
  | close (fd : Int)
  | fcntlGetfl (fd : Int)
  | fcntlSetfl (fd : Int) (nonblock : Bool) (flags : Int)
  | setsockopt (sockfd : Int)
  | tcgetattr (fd : Int)
  | cfsetospeed (speed : BitVec 32)
  | cfsetispeed (speed : BitVec 32)
  | tcsetattr (fd : Int) (setting : Termios)
  | tcflush (fd : Int)
  | bfmalloc
  | communicate (sockfd fd : Int)

abbrev PortCall.Result : PortCall → Type
  | createUucpLockfile _ | strdup _ => Option Path
  | tcgetattr _ => Option Termios
  | bfmalloc => Bool
  | communicate _ _ => Unit
  | unlockUucpLockfile _ | openDevice _ | close _ | fcntlGetfl _ | fcntlSetfl _ _ _ | setsockopt _
  | cfsetospeed _ | cfsetispeed _ | tcsetattr _ _ | tcflush _ => Int

abbrev Pooling := Program PortCall PortCall.Result
abbrev Trace := List (Exchange PortCall PortCall.Result)

abbrev createUucpLockfile (port : Nat) : Pooling (Option Path) := invoke (PortCall.createUucpLockfile port)

abbrev strdup (path : Path) : Pooling (Option Path) := invoke (PortCall.strdup path)

/-- The loop with the count of busy ports; `none` when it has not ended within the fuel. -/
def selectLoop : Nat → Nat → List PooledPort → Pooling (Option (Option Nat × List PooledPort))
  | 0,_,_ => return none
  | fuel + 1,nbusy,ports => do
    if nbusy < ports.length then
      let r := 0
      match ports[r]? with
      | none => selectLoop fuel nbusy ports
      | some port =>
        if port.busy then selectLoop fuel nbusy ports
        else
          match ← createUucpLockfile r with
          | some deviceLockfile =>
            let lockfile ← strdup deviceLockfile
            return some (some r,ports.set r {port with lockfile := lockfile})
          | none => selectLoop fuel (nbusy + 1) (ports.set r {port with busy := true})
    else return some (none,ports)

def selectSerialPort (fuel : Nat) (ports : List PooledPort) :
    Pooling (Option (Option Nat × List PooledPort)) :=
  selectLoop fuel 0 (ports.map fun port => {port with busy := false})

/-- The selection ends, with a port that it has locked if any port can be locked, and
without one only after a failed attempt on every port. -/
def Completes (ports : List PooledPort) (answer : (c : PortCall) → c.Result) : Prop :=
  ∃ fuel trace selected after,
    (selectSerialPort fuel ports).eval answer = (trace,some (selected,after)) ∧
    ((∃ r < ports.length, answer (.createUucpLockfile r) ≠ none) → ∃ r path, selected = some r ∧
      r < ports.length ∧ ⟨.createUucpLockfile r,some path⟩ ∈ trace) ∧
    (selected = none → ∀ r < ports.length, ⟨.createUucpLockfile r,none⟩ ∈ trace)

theorem selectLoop_locks {fuel nbusy : Nat} {ports : List PooledPort} {port : PooledPort}
    (first : ports[0]? = some port) (free : port.busy = false) (left : nbusy < ports.length) :
    selectLoop (fuel + 1) nbusy ports = (do
      match ← createUucpLockfile 0 with
      | some deviceLockfile =>
        let lockfile ← strdup deviceLockfile
        return some (some 0,ports.set 0 {port with lockfile := lockfile})
      | none => selectLoop fuel (nbusy + 1) (ports.set 0 {port with busy := true})) := by
  rw [selectLoop,if_pos left]
  dsimp only
  split
  · rename_i absent
    rw [first] at absent
    contradiction
  · rename_i found
    rw [first] at found
    obtain rfl := Option.some.inj found
    rw [if_neg (by simp [free])]

theorem selectLoop_ends (fuel : Nat) {nbusy : Nat} {ports : List PooledPort}
    (tried : ports.length ≤ nbusy) :
    selectLoop (fuel + 1) nbusy ports = return some (none,ports) := by
  unfold selectLoop
  rw [if_neg (Nat.not_lt.mpr tried)]

/-- Once the first port is busy the loop skips it for ever. -/
theorem selectLoop_stuck {ports : List PooledPort} {port : PooledPort} {nbusy : Nat}
    (first : ports[0]? = some port) (busy : port.busy = true) (left : nbusy < ports.length)
    (fuel : Nat) : selectLoop fuel nbusy ports = return none := by
  induction fuel with
  | zero => rfl
  | succ fuel ih =>
    unfold selectLoop
    rw [if_pos left]
    dsimp only
    split
    · exact ih
    · rename_i found
      rw [first] at found
      obtain rfl := Option.some.inj found
      rw [if_pos busy]
      exact ih

section
variable {answer : (c : PortCall) → c.Result} (port : PooledPort) {rest : List PooledPort}

theorem selectSerialPort_locks (rest : List PooledPort) (fuel : Nat) {path : Path}
    (locks : answer (.createUucpLockfile 0) = some path) :
    ∃ copied after, (selectSerialPort (fuel + 1) (port::rest)).eval answer =
      ([⟨.createUucpLockfile 0,some path⟩,⟨.strdup path,copied⟩],some (some 0,after)) := by
  unfold selectSerialPort
  rw [selectLoop_locks rfl rfl (by simp),eval_invoke_bind,locks]
  exact ⟨_,_,rfl⟩

theorem selectSerialPort_fails (fuel : Nat) (fails : answer (.createUucpLockfile 0) = none) :
    let tried := ({port with busy := true} : PooledPort)::rest.map fun port => {port with busy := false}
    (selectSerialPort (fuel + 1) (port::rest)).eval answer =
      (⟨.createUucpLockfile 0,none⟩::((selectLoop fuel 1 tried).eval answer).1,
        ((selectLoop fuel 1 tried).eval answer).2) := by
  unfold selectSerialPort
  rw [selectLoop_locks rfl rfl (by simp),eval_invoke_bind,fails]
  rfl

theorem selectSerialPort_single (fuel : Nat) (fails : answer (.createUucpLockfile 0) = none) :
    (selectSerialPort (fuel + 2) [port]).eval answer =
      ([⟨.createUucpLockfile 0,none⟩],some (none,[{port with busy := true}])) := by
  rw [selectSerialPort_fails port _ fails,selectLoop_ends fuel (by simp)]
  rfl

/-- With a second port and the first one taken the selection never ends. -/
theorem selectSerialPort_spins (fails : answer (.createUucpLockfile 0) = none) (more : rest ≠ [])
    (fuel : Nat) : ((selectSerialPort fuel (port::rest)).eval answer).2 = none := by
  cases fuel with
  | zero => rfl
  | succ fuel =>
    have left := List.length_pos_iff.mpr more
    rw [selectSerialPort_fails port fuel fails,selectLoop_stuck rfl rfl (by simpa using left) fuel]
    rfl

end

/-- The selection does what it should exactly if there is a single port or the first of
them can be locked. -/
theorem selection_complete_iff (ports : List PooledPort) (answer : (c : PortCall) → c.Result)
    (nonempty : 1 ≤ ports.length) :
    Completes ports answer ↔ ports.length = 1 ∨ answer (.createUucpLockfile 0) ≠ none := by
  obtain ⟨port,rest,rfl⟩ := List.exists_cons_of_length_pos nonempty
  cases locked : answer (.createUucpLockfile 0) with
  | some path =>
    refine iff_of_true ?_ (Or.inr nofun)
    obtain ⟨copied,after,runs⟩ := selectSerialPort_locks port rest 0 locked
    exact ⟨1,_,_,after,runs,fun _ => ⟨0,path,rfl,nonempty,List.mem_cons_self⟩,nofun⟩
  | none =>
    constructor
    · intro completes
      obtain ⟨fuel,trace,selected,after,runs,_⟩ := completes
      refine Or.inl (congrArg Nat.succ (List.length_eq_zero_iff.mpr ?_))
      apply Classical.byContradiction
      intro more
      have spins := selectSerialPort_spins port locked more fuel
      rw [runs] at spins
      contradiction
    · intro single
      have alone := single.resolve_right fun free => free rfl
      obtain rfl := List.length_eq_zero_iff.mp (Nat.succ.inj alone)
      refine ⟨2,_,_,_,selectSerialPort_single port 0 locked,?_,?_⟩
      · intro free
        obtain ⟨r,inside,locks⟩ := free
        obtain rfl := Nat.lt_one_iff.mp inside
        exact absurd locked locks
      · intro _ r inside
        obtain rfl := Nat.lt_one_iff.mp inside
        exact List.mem_cons_self

/-- Only these ports can be locked. -/
def lockable (ports : List Nat) : (c : PortCall) → c.Result
  | .createUucpLockfile port => if port ∈ ports then some ['L'] else none
  | .strdup path => some path
  | .tcgetattr _ => none
  | .bfmalloc => false
  | .communicate _ _ => ()
  | .unlockUucpLockfile _ | .openDevice _ | .close _ | .fcntlGetfl _ | .fcntlSetfl _ _ _ | .setsockopt _
  | .cfsetospeed _ | .cfsetispeed _ | .tcsetattr _ _ | .tcflush _ => -1

def ttymxc : PooledPort :=
  ⟨⟨⟨some [47],none⟩,9600,8,PARITY_NONE,HARDWARE_FLOW,false,true⟩,none,false,nofun⟩

theorem selection_complete_iff_single : Completes [ttymxc] (lockable []) :=
  (selection_complete_iff [ttymxc] (lockable []) (by decide)).mpr (Or.inl rfl)

/-- Two ports of which the second one can be locked. -/
theorem second_port_never_tried : ¬∀ (ports : List PooledPort) (answer : (c : PortCall) → c.Result),
    1 ≤ ports.length → ports.length ≤ 256 → Completes ports answer := by
  intro always
  have locked : lockable [1] (.createUucpLockfile 0) = none := by decide
  obtain ⟨fuel,trace,selected,after,runs,_⟩ :=
    always [ttymxc,ttymxc] (lockable [1]) (by decide) (by decide)
  have spins := selectSerialPort_spins ttymxc locked (List.cons_ne_nil ttymxc []) fuel
  rw [runs] at spins
  contradiction

end SerialIp.Pool
