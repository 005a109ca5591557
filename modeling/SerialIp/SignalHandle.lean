import Mathlib.Order.Lattice
import Mathlib.Algebra.Order.Ring.Int

/-! The signal actions of signal_handle.c, with the debug level of debug_handle.c that
two of them move. The listening process and the process of a session each keep the
number of a signal in one global variable, here `none` for 0. -/
namespace SerialIp

inductive Signal
  | SIGHUP
  | SIGINT
  | SIGQUIT
  | SIGUSR1
  | SIGUSR2
  | SIGPIPE
  | SIGTERM
  | SIGCLD
  deriving DecidableEq

def Signal.number : Signal → Nat
  | SIGHUP => 1
  | SIGINT => 2
  | SIGQUIT => 3
  | SIGUSR1 => 10
  | SIGUSR2 => 12
  | SIGPIPE => 13
  | SIGTERM => 15
  | SIGCLD => 17

abbrev DBG_LV0 : Int := 0
abbrev DBG_LV9 : Int := 9

def setDebugLevel (newLevel level : Int) : Int :=
  if newLevel ≥ DBG_LV0 ∧ newLevel ≤ DBG_LV9 then newLevel else level

def actionSigusr1 (level : Int) : Int :=
  if level < DBG_LV9 then setDebugLevel (level+1) level else level

def actionSigusr2 (level : Int) : Int :=
  if level > DBG_LV0 then setDebugLevel (level-1) level else level

/-- One clamped step for each of the two signals, nothing for the others. -/
def clampedStep : Signal → Int → Int
  | .SIGUSR1,level => min (level+1) DBG_LV9
  | .SIGUSR2,level => max (level-1) DBG_LV0
  | _,level => level

def debugAction : Signal → Int → Int
  | .SIGUSR1,level => actionSigusr1 level
  | .SIGUSR2,level => actionSigusr2 level
  | _,level => level

def InRange (level : Int) : Prop := DBG_LV0 ≤ level ∧ level ≤ DBG_LV9

theorem debugAction_clamped (signal : Signal) {level : Int} (range : InRange level) :
    debugAction signal level = clampedStep signal level := by
  unfold InRange at range
  cases signal with
  | SIGUSR1 =>
    simp only [debugAction,clampedStep,actionSigusr1,setDebugLevel]
    split_ifs <;> omega
  | SIGUSR2 =>
    simp only [debugAction,clampedStep,actionSigusr2,setDebugLevel]
    split_ifs <;> omega
  | SIGHUP | SIGINT | SIGQUIT | SIGPIPE | SIGTERM | SIGCLD => rfl

theorem clampedStep_range (signal : Signal) {level : Int} (range : InRange level) :
    InRange (clampedStep signal level) := by
  unfold InRange at range ⊢
  cases signal with
  | SIGUSR1 | SIGUSR2 =>
    simp only [clampedStep]
    omega
  | SIGHUP | SIGINT | SIGQUIT | SIGPIPE | SIGTERM | SIGCLD => exact range

end SerialIp
