import SerialIp.Library.Machine
import SerialIp.SignalHandle
import SerialIp.TelnetCodes

/-! The signals of a session. The handler only stores the number; the loop of the session
acts on it when it next calls child_pending_signal_handle, which clears it at the end. A
signal may arrive between any two statements of that call. -/
namespace SerialIp
open Library

/-- Where the session is: outside the call, before its switch, in a branch of the switch,
or behind it with the number still to be cleared. -/
inductive PendingPc
  | outside
  | called
  | switched (branch : Option Signal)
  | handled
  deriving DecidableEq

structure Child where
  signoChild : Option Signal
  pc : PendingPc
  debugLevel : Int
  breakSignaled : Bool
  linestate : UInt8
  exitStatus : Option Nat

abbrev CPC_LINESTATE_BREAK_DETECT : UInt8 := 0x10

def childSignalReceived (signal : Signal) (c : Child) : Child := {c with signoChild := some signal}

def telnetSigint (c : Child) : Child :=
  {c with breakSignaled := true, linestate := c.linestate ||| CPC_LINESTATE_BREAK_DETECT}

def childSighandler (signal : Option Signal) (c : Child) : Child :=
  {c with exitStatus := some (128+signal.elim 0 Signal.number)}

/-- The body of a branch. The last one reads the number again, which may have changed. -/
def handleBranch (c : Child) : Option Signal → Child
  | none => c
  | some .SIGINT => telnetSigint c
  | some .SIGUSR1 => {c with debugLevel := actionSigusr1 c.debugLevel}
  | some .SIGUSR2 => {c with debugLevel := actionSigusr2 c.debugLevel}
  | some _ => childSighandler c.signoChild c

/-- The next statement of child_pending_signal_handle, or its call. -/
def childPendingSignalHandle (c : Child) : Child :=
  match c.pc with
  | .outside => {c with pc := .called}
  | .called => {c with pc := .switched c.signoChild}
  | .switched branch => handleBranch {c with pc := .handled} branch
  | .handled => {c with signoChild := none, pc := .outside}

/-- The signals that the switch leaves to child_sighandler: SIGTERM, SIGQUIT, SIGHUP and
SIGPIPE of those that a session receives. -/
def Fatal (signal : Signal) : Prop := signal ∉ [.SIGINT,.SIGUSR1,.SIGUSR2]

instance (signal : Signal) : Decidable (Fatal signal) := inferInstanceAs (Decidable (_ ∉ _))

inductive Moment
  | arrival (signal : Signal)
  | statement

/-- The session with what has arrived: the last signal since the number was last cleared,
whether a fatal one is waiting for a call to start, and whether one was when the call
under way started. -/
structure Pending extends Child where
  latest : Option Signal
  waiting : Bool
  due : Bool

namespace Pending

def start (c : Child) : Pending := ⟨{c with signoChild := none, pc := .outside, exitStatus := none},
  none,false,false⟩

/-- Nothing happens to a process that has ended. -/
def step (p : Pending) (moment : Moment) : Pending :=
  if p.exitStatus ≠ none then p
  else match moment with
  | .arrival signal => {p with
      toChild := childSignalReceived signal p.toChild
      latest := some signal
      waiting := p.waiting || decide (Fatal signal)}
  | .statement =>
    let next := childPendingSignalHandle p.toChild
    match p.pc with
    | .outside => {p with toChild := next, due := p.waiting, waiting := false}
    | .handled => {p with toChild := next, due := false, latest := none}
    | _ => {p with toChild := next}

/-- A call that starts after a fatal signal ends the process: it has done so, or its switch
is still to come, or that has led to child_sighandler. -/
def Ending (p : Pending) : Prop := p.due = true →
  p.exitStatus ≠ none ∨ p.pc = .called ∨ ∃ signal, p.pc = .switched (some signal) ∧ Fatal signal

/-- At the switch of a call that a fatal signal waited for, the last signal that has arrived
since the number was cleared is a fatal one. -/
def FatalIsLast (p : Pending) : Moment → Prop
  | .arrival _ => True
  | .statement => p.exitStatus = none → p.pc = .called → p.due = true →
      ∃ signal, p.latest = some signal ∧ Fatal signal

theorem handleBranch_exits {c : Child} {signal : Signal} (fatal : Fatal signal) :
    (handleBranch c (some signal)).exitStatus ≠ none := by
  cases signal with
  | SIGINT | SIGUSR1 | SIGUSR2 => exact absurd (by decide) fatal
  | SIGHUP | SIGQUIT | SIGPIPE | SIGTERM | SIGCLD => exact Option.some_ne_none _

/-- No branch changes the number or the place it returns to. -/
theorem handleBranch_keeps (c : Child) (branch : Option Signal) :
    (handleBranch c branch).signoChild = c.signoChild ∧ (handleBranch c branch).pc = c.pc := by
  unfold handleBranch
  split <;> exact ⟨rfl,rfl⟩

theorem step_ended {p : Pending} (ended : p.exitStatus ≠ none) (moment : Moment) :
    p.step moment = p := if_pos ended

theorem step_arrival {p : Pending} (alive : p.exitStatus = none) (signal : Signal) :
    p.step (.arrival signal) = {p with
      signoChild := some signal
      latest := some signal
      waiting := p.waiting || decide (Fatal signal)} := if_neg (not_not.mpr alive)

/-- A call takes over what has waited for it, and its end forgets what arrived during it. -/
theorem step_statement {p : Pending} (alive : p.exitStatus = none) :
    p.step .statement = match p.pc with
      | .outside => {p with pc := .called, due := p.waiting, waiting := false}
      | .called => {p with pc := .switched p.signoChild}
      | .switched branch => {p with toChild := handleBranch {p.toChild with pc := .handled} branch}
      | .handled => {p with signoChild := none, pc := .outside, due := false, latest := none} := by
  unfold step childPendingSignalHandle
  rw [if_neg (not_not.mpr alive)]
  cases p.pc <;> rfl

theorem step_slot {p : Pending} (slot : p.signoChild = p.latest) (moment : Moment) :
    (p.step moment).signoChild = (p.step moment).latest := by
  by_cases alive : p.exitStatus = none
  · cases moment with
    | arrival signal =>
      rw [step_arrival alive]
    | statement =>
      rw [step_statement alive]
      cases p.pc with
      | outside | called => exact slot
      | switched branch => exact (handleBranch_keeps _ branch).1.trans slot
      | handled => rfl
  · rw [step_ended alive]
    exact slot

/-- One moment keeps the promise if and only if a due switch finds a fatal signal. -/
theorem step_ending {p : Pending} (slot : p.signoChild = p.latest) (ending : p.Ending)
    (moment : Moment) : (p.step moment).Ending ↔ p.FatalIsLast moment := by
  by_cases alive : p.exitStatus = none
  · cases moment with
    | arrival signal =>
      rw [step_arrival alive]
      exact iff_of_true ending trivial
    | statement =>
      rw [step_statement alive]
      unfold Ending at ending
      unfold Ending FatalIsLast
      cases place : p.pc with
      | outside => exact iff_of_true (fun _ => Or.inr (Or.inl rfl)) nofun
      | called =>
        dsimp only
        rw [slot]
        constructor
        · intro promise _ _ due
          obtain ended | again | ⟨signal,branch,fatal⟩ := promise due
          · exact absurd alive ended
          · contradiction
          · exact ⟨signal,PendingPc.switched.inj branch,fatal⟩
        · intro last due
          obtain ⟨signal,latest,fatal⟩ := last alive rfl due
          exact Or.inr (Or.inr ⟨signal,congrArg _ latest,fatal⟩)
      | switched branch =>
        refine iff_of_true (fun due => Or.inl ?_) nofun
        obtain ended | again | ⟨signal,same,fatal⟩ := ending due
        · exact absurd alive ended
        · rw [place] at again
          contradiction
        · rw [place] at same
          rw [PendingPc.switched.inj same]
          exact handleBranch_exits fatal
      | handled => exact iff_of_true nofun nofun
  · rw [step_ended alive]
    refine iff_of_true ending ?_
    cases moment with
    | arrival signal => trivial
    | statement => exact fun ended => absurd ended alive

/-- A due call that has passed its switch ends the process with its next statement. -/
theorem Ending.ends {p : Pending} (ending : p.Ending) (due : p.due = true) (passed : p.pc ≠ .called) :
    (p.step .statement).exitStatus ≠ none := by
  by_cases alive : p.exitStatus = none
  · obtain ended | again | ⟨signal,place,fatal⟩ := ending due
    · exact absurd alive ended
    · exact absurd again passed
    · rw [step_statement alive,place]
      exact handleBranch_exits fatal
  · rw [step_ended alive]
    exact alive

/-- Every call that starts after a fatal signal ends the process, in every state of a run,
if and only if no switch of such a call finds the fatal signal overwritten or cleared. -/
theorem fatal_ends_iff (c : Child) (moments : List Moment) :
    Machine.Throughout step Ending (start c) moments ↔
      Machine.Along step FatalIsLast (start c) moments :=
  Machine.throughout_iff_along (fun p => p.signoChild = p.latest) Ending (fun _ _ => True) FatalIsLast
    (fun _ moment slot _ => step_slot slot moment)
    (fun _ moment slot ending _ => step_ending slot ending moment) rfl nofun
    (Machine.along_invariant (fun _ => True) (fun _ _ _ => trivial) (fun _ _ _ => trivial) trivial
      moments)

def quiet : Child := ⟨none,.outside,0,false,0,none⟩

/-- SIGTERM is overwritten by a SIGINT before the call, which handles that and returns; or it
arrives between the switch and the clearing of a call, and the next call finds nothing. -/
theorem fatal_signal_lost :
    let returned (p : Pending) : Prop := p.pc = .outside ∧ p.exitStatus = none
    let overwritten := [.arrival .SIGTERM,.arrival .SIGINT,.statement,.statement,.statement,.statement]
    let cleared := [.statement,.statement,.arrival .SIGTERM,.statement,.statement,
      .statement,.statement,.statement,.statement]
    returned (Machine.run step (start quiet) overwritten) ∧
      returned (Machine.run step (start quiet) cleared) ∧
      ¬Machine.Throughout step Ending (start quiet) overwritten := by
  refine ⟨⟨rfl,rfl⟩,⟨rfl,rfl⟩,?_⟩
  intro all
  have switched : Ending _ := all.2.2.2.2.1
  obtain ended | again | ⟨signal,place,fatal⟩ := switched rfl
  · exact absurd rfl ended
  · contradiction
  · cases place
    exact fatal (by decide)

end Pending
end SerialIp
