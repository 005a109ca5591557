import SerialIp.Library.Machine
import SerialIp.SignalHandle
import Mathlib.Data.List.Perm.Basic

/-! The children of the concurrent server and action_sigchild, which collects them. A child
may end between any two statements. SIGCLD is one pending bit, blocked while its handler
runs; the accept loop calls the handler again itself, and that call may be interrupted. -/
namespace SerialIp
open Library

/-- A child that has ended, with the status that waitpid() stores. -/
structure Ended where
  pid : Int
  status : Nat

def signame (signal : Nat) : String :=
  match signal with
  | 1 => "SIGHUP"
  | 2 => "SIGINT"
  | 3 => "SIGQUIT"
  | 4 => "SIGILL"
  | 5 => "SIGTRAP"
  | 6 => "SIGABRT"
  | 7 => "SIGBUS"
  | 8 => "SIGFPE"
  | 9 => "SIGKILL"
  | 10 => "SIGUSR1"
  | 11 => "SIGSEGV"
  | 12 => "SIGUSR2"
  | 13 => "SIGPIPE"
  | 14 => "SIGALRM"
  | 15 => "SIGTERM"
  | 17 => "SIGCLD"
  | 18 => "SIGCONT"
  | 19 => "SIGSTOP"
  | 20 => "SIGTSTP"
  | 21 => "SIGTTIN"
  | 22 => "SIGTTOU"
  | 26 => "SIGVTALRM"
  | 27 => "SIGPROF"
  | 28 => "SIGWINCH"
  | 29 => "SIGPOLL"
  | 30 => "SIGPWR"
  | _ => "unexpected"

def WTERMSIG (status : Nat) : Nat := status % 128

def WEXITSTATUS (status : Nat) : Nat := status / 256 % 256

def WIFEXITED (status : Nat) : Prop := WTERMSIG status = 0

def WIFSIGNALED (status : Nat) : Prop := 0 < WTERMSIG status ∧ WTERMSIG status < 127

instance (status : Nat) : Decidable (WIFEXITED status) := inferInstanceAs (Decidable (_ = _))

instance (status : Nat) : Decidable (WIFSIGNALED status) := inferInstanceAs (Decidable (_ ∧ _))

/-- The line for the system log. -/
def logTerminationStatus (ended : Ended) : String :=
  "signal_handle.c: log_termination_status(): child PID " ++ toString ended.pid ++
    if WIFEXITED ended.status then
      " terminated normally by calling exit(" ++ toString (WEXITSTATUS ended.status) ++ ")"
    else if WIFSIGNALED ended.status then
      " terminated by unhandled " ++ signame (WTERMSIG ended.status) ++ " signal (number " ++
        toString (WTERMSIG ended.status) ++ ")"
    else " unknown termination status, value: " ++ toString ended.status

/-- Where a call of action_sigchild is: before the waitpid() of wait_child_termination, before
its second one, before the log, or on its way out. -/
inductive ReapPc
  | waiting
  | sleeping
  | logging (ended : Ended)
  | leaving

/-- The listening process: its children, SIGCLD, and the two calls of action_sigchild that
may be under way, the handler's on top of the accept loop's. `exits` has all that ended. -/
structure Parent where
  live : List Int
  zombies : List Ended
  pending : Bool
  handler : Option ReapPc
  mainline : Option ReapPc
  log : List String
  exits : List Ended

inductive Waited
  | child (ended : Ended)
  | unavailable
  | noChildren

/-- With WNOHANG; which of several children it collects is not specified. -/
def waitpid (choice : Nat) (p : Parent) : Waited × Parent :=
  match p.zombies[choice % p.zombies.length]? with
  | some ended => (.child ended,{p with zombies := p.zombies.eraseIdx (choice % p.zombies.length)})
  | none => (if p.live = [] then .noChildren else .unavailable,p)

/-- The next statement of a call of action_sigchild, `none` when it returns. -/
def actionSigchild (choice : Nat) (p : Parent) : ReapPc → Option ReapPc × Parent
  | .waiting =>
    match waitpid choice p with
    | (.child ended,p) => (some (.logging ended),p)
    | (.unavailable,p) => (some .sleeping,p)
    | (.noChildren,p) => (some .leaving,p)
  | .sleeping =>
    match waitpid choice p with
    | (.child ended,p) => (some (.logging ended),p)
    | (_,p) => (some .leaving,p)
  | .logging ended => (some .waiting,{p with log := p.log ++ [logTerminationStatus ended]})
  | .leaving => (none,p)

inductive FamilyMoment
  | fork (pid : Int)
  | exit (pid : Int) (status : Nat)
  | deliver
  | acceptFailed
  | statement (choice : Nat)

namespace Parent

def start : Parent := ⟨[],[],false,none,none,[],[]⟩

/-- The accept loop stands still while a call of action_sigchild is under way. -/
def step (p : Parent) : FamilyMoment → Parent
  | .fork pid => if p.handler.isNone ∧ p.mainline.isNone then {p with live := p.live ++ [pid]} else p
  | .exit pid status =>
    if pid ∈ p.live then {p with
      live := p.live.erase pid
      zombies := p.zombies ++ [⟨pid,status⟩]
      pending := true
      exits := p.exits ++ [⟨pid,status⟩]}
    else p
  | .deliver =>
    if p.pending ∧ p.handler.isNone then {p with pending := false, handler := some .waiting} else p
  | .acceptFailed =>
    if p.handler.isNone ∧ p.mainline.isNone then {p with mainline := some .waiting} else p
  | .statement choice =>
    match p.handler,p.mainline with
    | some pc,_ => let next := actionSigchild choice p pc; {next.2 with handler := next.1}
    | none,some pc => let next := actionSigchild choice p pc; {next.2 with mainline := next.1}
    | none,none => p

/-- What the process does without the accept loop: SIGCLD is delivered as soon as it can be. -/
def advance (p : Parent) (choice : Nat) : Parent :=
  if p.pending ∧ p.handler.isNone then p.step .deliver else p.step (.statement choice)

/-- The child that a call has collected and not logged yet. -/
def held : Option ReapPc → List Ended
  | some (.logging ended) => [ended]
  | _ => []

def lines (children : List Ended) : List String := children.map logTerminationStatus

/-- Every line is in the log or still to come as often as there are children it is about. -/
def Balanced (p : Parent) : Prop := ∀ line,
  p.log.count line + (lines (held p.handler)).count line + (lines (held p.mainline)).count line +
    (lines p.zombies).count line = (lines p.exits).count line

/-- While a child waits to be collected, SIGCLD is pending or its handler will look again. -/
def Awaited (p : Parent) : Prop :=
  p.zombies ≠ [] → p.pending = true ∨ ∃ pc, p.handler = some pc ∧ pc ≠ .leaving

/-- A bound on the statements that a call has before it when no child is left. -/
def remaining : Option ReapPc → Nat
  | none => 0
  | some .leaving => 1
  | some .sleeping => 2
  | some .waiting => 3
  | some (.logging _) => 4

def work (p : Parent) : Nat :=
  3*p.zombies.length + 4*p.pending.toNat + remaining p.handler + remaining p.mainline

/-- What a statement of action_sigchild does: it collects a child, finds none, logs or ends. -/
inductive Statement (p : Parent) : ReapPc → Option ReapPc × Parent → Prop
  | collects {pc : ReapPc} {ended : Ended} {rest : List Ended}
      (looking : pc = .waiting ∨ pc = .sleeping) (taken : (ended::rest).Perm p.zombies) :
      Statement p pc (some (.logging ended),{p with zombies := rest})
  | again (empty : p.zombies = []) : Statement p .waiting (some .sleeping,p)
  | finds {pc : ReapPc} (looking : pc = .waiting ∨ pc = .sleeping) (empty : p.zombies = []) :
      Statement p pc (some .leaving,p)
  | logs (ended : Ended) :
      Statement p (.logging ended) (some .waiting,{p with log := p.log ++ [logTerminationStatus ended]})
  | returns : Statement p .leaving (none,p)

theorem waitpid_cases (choice : Nat) (p : Parent) :
    (∃ ended rest, (ended::rest).Perm p.zombies ∧
      waitpid choice p = (.child ended,{p with zombies := rest})) ∨
    (p.zombies = [] ∧ (waitpid choice p = (.unavailable,p) ∨ waitpid choice p = (.noChildren,p))) := by
  unfold waitpid
  by_cases empty : p.zombies = []
  · refine Or.inr ⟨empty,?_⟩
    simp only [empty,List.getElem?_nil]
    split
    · exact Or.inr rfl
    · exact Or.inl rfl
  · have inside : choice % p.zombies.length < p.zombies.length :=
      Nat.mod_lt _ (List.length_pos_iff.mpr empty)
    refine Or.inl ⟨p.zombies[choice % p.zombies.length],_,List.getElem_cons_eraseIdx_perm inside,?_⟩
    rw [List.getElem?_eq_getElem inside]

theorem actionSigchild_statement (choice : Nat) (p : Parent) (pc : ReapPc) :
    Statement p pc (actionSigchild choice p pc) := by
  cases pc with
  | waiting =>
    obtain ⟨ended,rest,taken,same⟩ | ⟨empty,same | same⟩ := waitpid_cases choice p
    · simpa [actionSigchild,same] using .collects (Or.inl rfl) taken
    · simpa [actionSigchild,same] using .again empty
    · simpa [actionSigchild,same] using .finds (Or.inl rfl) empty
  | sleeping =>
    obtain ⟨ended,rest,taken,same⟩ | ⟨empty,same | same⟩ := waitpid_cases choice p
    · simpa [actionSigchild,same] using .collects (Or.inr rfl) taken
    · simpa [actionSigchild,same] using .finds (Or.inr rfl) empty
    · simpa [actionSigchild,same] using .finds (Or.inr rfl) empty
  | logging ended => exact .logs ended
  | leaving => exact .returns

namespace Statement
variable {p : Parent} {pc : ReapPc} {next : Option ReapPc × Parent}

theorem keeps (statement : Statement p pc next) :
    next.2 = {p with zombies := next.2.zombies, log := next.2.log} := by
  cases statement <;> rfl

theorem balances (statement : Statement p pc next) (line : String) :
    next.2.log.count line + (lines (held next.1)).count line + (lines next.2.zombies).count line =
      p.log.count line + (lines (held (some pc))).count line + (lines p.zombies).count line := by
  cases statement with
  | collects looking taken =>
    have same := (taken.map logTerminationStatus).count_eq line
    rw [List.map_cons,← List.singleton_append,List.count_append] at same
    obtain rfl | rfl := looking <;> simp only [lines,held,List.map_nil,List.count_nil,List.map_cons] <;> omega
  | again empty => rfl
  | finds looking empty => obtain rfl | rfl := looking <;> rfl
  | logs ended => simp [lines,held,List.count_append]
  | returns => rfl

theorem spends (statement : Statement p pc next) :
    3*next.2.zombies.length + remaining next.1 < 3*p.zombies.length + remaining (some pc) := by
  cases statement with
  | collects looking taken =>
    have shorter := taken.length_eq
    rw [List.length_cons] at shorter
    obtain rfl | rfl := looking <;> simp only [remaining] <;> omega
  | again empty => simp [remaining]
  | finds looking empty => obtain rfl | rfl := looking <;> simp [remaining]
  | logs ended => simp [remaining]
  | returns => simp [remaining]

theorem shrinks (statement : Statement p pc next) (left : next.2.zombies ≠ []) : p.zombies ≠ [] := by
  intro empty
  cases statement with
  | collects looking taken =>
    rw [empty] at taken
    exact List.cons_ne_nil _ _ taken.eq_nil
  | again _ | finds _ _ | logs _ | returns => exact left empty

/-- A call that has not decided to leave looks again before it does. -/
theorem looks (statement : Statement p pc next) (staying : pc ≠ .leaving)
    (left : next.2.zombies ≠ []) : ∃ pc, next.1 = some pc ∧ pc ≠ .leaving := by
  cases statement with
  | collects looking taken => exact ⟨_,rfl,nofun⟩
  | again empty => exact ⟨_,rfl,nofun⟩
  | finds looking empty => exact absurd empty left
  | logs ended => exact ⟨_,rfl,nofun⟩
  | returns => exact absurd rfl staying

end Statement

/-- What a moment can do to the process. -/
inductive Change (p : Parent) : Parent → Prop
  | none : Change p p
  | forks (pid : Int) : Change p {p with live := p.live ++ [pid]}
  | ends (pid : Int) (status : Nat) : Change p {p with
      live := p.live.erase pid
      zombies := p.zombies ++ [⟨pid,status⟩]
      pending := true
      exits := p.exits ++ [⟨pid,status⟩]}
  | delivers (due : p.pending = true) (free : p.handler = .none) :
      Change p {p with pending := false, handler := some .waiting}
  | calls (free : p.handler = .none) (outside : p.mainline = .none) :
      Change p {p with mainline := some .waiting}
  | handles {pc : ReapPc} {next : Option ReapPc × Parent} (running : p.handler = some pc)
      (statement : Statement p pc next) : Change p {next.2 with handler := next.1}
  | continues {pc : ReapPc} {next : Option ReapPc × Parent} (returned : p.handler = .none)
      (running : p.mainline = some pc) (statement : Statement p pc next) :
      Change p {next.2 with mainline := next.1}

theorem step_handler {p : Parent} {pc : ReapPc} (running : p.handler = some pc) (choice : Nat) :
    ∃ next, Statement p pc next ∧ p.step (.statement choice) = {next.2 with handler := next.1} := by
  refine ⟨_,actionSigchild_statement choice p pc,?_⟩
  simp only [step,running]

theorem step_mainline {p : Parent} {pc : ReapPc} (returned : p.handler = none)
    (running : p.mainline = some pc) (choice : Nat) :
    ∃ next, Statement p pc next ∧ p.step (.statement choice) = {next.2 with mainline := next.1} := by
  refine ⟨_,actionSigchild_statement choice p pc,?_⟩
  simp only [step,returned,running]

theorem step_idle {p : Parent} (returned : p.handler = none) (outside : p.mainline = none)
    (choice : Nat) : p.step (.statement choice) = p := by
  simp only [step,returned,outside]

theorem step_change (p : Parent) (moment : FamilyMoment) : Change p (p.step moment) := by
  cases moment with
  | fork pid =>
    simp only [step]
    split
    · exact .forks pid
    · exact .none
  | exit pid status =>
    simp only [step]
    split
    · exact .ends pid status
    · exact .none
  | deliver =>
    simp only [step]
    split
    · rename_i free
      exact .delivers free.1 (Option.isNone_iff_eq_none.mp free.2)
    · exact .none
  | acceptFailed =>
    simp only [step]
    split
    · rename_i free
      exact .calls (Option.isNone_iff_eq_none.mp free.1) (Option.isNone_iff_eq_none.mp free.2)
    · exact .none
  | statement choice =>
    cases running : p.handler with
    | some pc =>
      obtain ⟨next,statement,same⟩ := step_handler running choice
      rw [same]
      exact .handles running statement
    | none =>
      cases outside : p.mainline with
      | some pc =>
        obtain ⟨next,statement,same⟩ := step_mainline running outside choice
        rw [same]
        exact .continues running outside statement
      | none =>
        rw [step_idle running outside]
        exact .none

theorem Change.balanced {p p' : Parent} (change : Change p p') (balanced : p.Balanced) :
    p'.Balanced := by
  intro line
  have before := balanced line
  cases change with
  | none | forks pid => exact before
  | ends pid status =>
    simp only [lines,List.map_append,List.count_append] at before ⊢
    omega
  | delivers due free =>
    rw [free] at before
    exact before
  | calls free outside =>
    rw [outside] at before
    exact before
  | handles running statement =>
    have moved := statement.balances line
    rw [running] at before
    rw [statement.keeps]
    dsimp only at moved ⊢
    omega
  | continues returned running statement =>
    have moved := statement.balances line
    rw [running] at before
    rw [statement.keeps]
    dsimp only at moved ⊢
    omega

theorem Change.awaited {p p' : Parent} (change : Change p p') (awaited : p.Awaited) :
    p'.Awaited := by
  cases change with
  | none | forks pid => exact awaited
  | ends pid status => exact fun _ => Or.inl rfl
  | delivers due free => exact fun _ => Or.inr ⟨.waiting,rfl,nofun⟩
  | calls free outside => exact awaited
  | handles running statement =>
    intro left
    obtain pending | ⟨_,same,staying⟩ := awaited (statement.shrinks left)
    · refine Or.inl ?_
      rw [statement.keeps]
      exact pending
    · obtain rfl := Option.some.inj (running.symm.trans same)
      exact Or.inr (statement.looks staying left)
  | continues returned running statement =>
    intro left
    rw [statement.keeps]
    exact awaited (statement.shrinks left)

theorem advance_change (p : Parent) (choice : Nat) : Change p (p.advance choice) := by
  unfold advance
  split <;> exact step_change p _

/-- Each statement uses up some of the work, and none is idle before all of it is done. -/
theorem advance_work (p : Parent) (choice : Nat) (awaited : p.Awaited) :
    (p.advance choice).work ≤ p.work - 1 := by
  unfold advance
  split
  · rename_i due
    rw [step,if_pos due]
    simp only [work,due.1,Option.isNone_iff_eq_none.mp due.2,remaining,Bool.toNat_true,Bool.toNat_false]
    omega
  · rename_i quiet
    cases running : p.handler with
    | some pc =>
      obtain ⟨next,statement,same⟩ := step_handler running choice
      have less := statement.spends
      rw [same,statement.keeps]
      simp only [work,running] at less ⊢
      omega
    | none =>
      have nothing : p.pending = false := by simpa [running] using quiet
      have collected : p.zombies = [] := by
        by_contra left
        obtain pending | ⟨_,same,_⟩ := awaited left
        · rw [nothing] at pending
          contradiction
        · rw [running] at same
          contradiction
      cases outside : p.mainline with
      | some pc =>
        obtain ⟨next,statement,same⟩ := step_mainline running outside choice
        have less := statement.spends
        rw [same,statement.keeps]
        simp only [work,outside] at less ⊢
        omega
      | none =>
        rw [step_idle running outside]
        simp [work,nothing,collected,running,outside,remaining]

theorem advance_exits (p : Parent) (choice : Nat) : (p.advance choice).exits = p.exits := by
  unfold advance
  split
  · rename_i due
    rw [step,if_pos due]
  · cases running : p.handler with
    | some pc =>
      obtain ⟨next,statement,same⟩ := step_handler running choice
      rw [same,statement.keeps]
    | none =>
      cases outside : p.mainline with
      | some pc =>
        obtain ⟨next,statement,same⟩ := step_mainline running outside choice
        rw [same,statement.keeps]
      | none => rw [step_idle running outside]

theorem start_awaited : start.Awaited := fun left => absurd rfl left

theorem start_balanced : start.Balanced := fun _ => rfl

theorem Balanced.perm {p : Parent} (balanced : p.Balanced) :
    (p.log ++ lines (held p.handler ++ held p.mainline ++ p.zombies)).Perm (lines p.exits) := by
  rw [List.perm_iff_count]
  intro line
  have same := balanced line
  simp only [lines,List.map_append,List.count_append] at same ⊢
  omega

theorem Balanced.zombies_le {p : Parent} (balanced : p.Balanced) :
    p.zombies.length ≤ p.exits.length := by
  have same := balanced.perm.length_eq
  simp only [lines,List.length_append,List.length_map] at same
  omega

theorem remaining_le (call : Option ReapPc) : remaining call ≤ 4 := by
  unfold remaining
  split <;> omega

theorem work_le {p : Parent} (balanced : p.Balanced) : p.work ≤ 3*p.exits.length + 12 := by
  have few := balanced.zombies_le
  have handler := remaining_le p.handler
  have mainline := remaining_le p.mainline
  have pending := Bool.toNat_le p.pending
  unfold work
  omega

theorem remaining_eq_zero {call : Option ReapPc} (done : remaining call = 0) : call = none := by
  unfold remaining at done
  split at done
  · rfl
  all_goals contradiction

/-- The process with its work done. -/
theorem work_eq_zero {p : Parent} (balanced : p.Balanced) (done : p.work = 0) :
    p.zombies = [] ∧ p.pending = false ∧ p.handler = none ∧ p.mainline = none ∧
      p.log.Perm (lines p.exits) := by
  unfold work at done
  have handler : p.handler = none := remaining_eq_zero (by omega)
  have mainline : p.mainline = none := remaining_eq_zero (by omega)
  have empty : p.zombies = [] := List.length_eq_zero_iff.mp (by omega)
  have settled : p.pending = false := by
    cases pending : p.pending with
    | false => rfl
    | true =>
      rw [pending,Bool.toNat_true] at done
      omega
  refine ⟨empty,settled,handler,mainline,?_⟩
  have all := balanced.perm
  rw [handler,mainline,empty] at all
  simpa [held,lines] using all

theorem run_kept (moments : List FamilyMoment) :
    (Machine.run step start moments).Awaited ∧ (Machine.run step start moments).Balanced :=
  Machine.invariant_run (fun p : Parent => p.Awaited ∧ p.Balanced)
    (fun p moment kept => ⟨(step_change p moment).awaited kept.1,(step_change p moment).balanced kept.2⟩)
    ⟨start_awaited,start_balanced⟩ moments

/-- In every state of every run: a child that has ended and was not collected has SIGCLD
pending or the handler before another look; and every one that has ended stands in the log
once, is held by one of the calls, or waits to be collected, whatever calls interrupt each
other. -/
theorem terminations_accounted (moments : List FamilyMoment) :
    let p := Machine.run step start moments
    (p.zombies ≠ [] → p.pending = true ∨ ∃ pc, p.handler = some pc ∧ pc ≠ .leaving) ∧
      (p.log ++ (held p.handler ++ held p.mainline ++ p.zombies).map logTerminationStatus).Perm
        (p.exits.map logTerminationStatus) :=
  ⟨(run_kept moments).1,(run_kept moments).2.perm⟩

/-- Left alone after any run, the process collects every child that has ended in a number of
statements bounded by theirs, and then the log has exactly one line for each of them. -/
theorem terminations_logged (moments : List FamilyMoment) (choices : List Nat)
    (enough : 3*(Machine.run step start moments).exits.length + 12 ≤ choices.length) :
    let p := Machine.run advance (Machine.run step start moments) choices
    p.zombies = [] ∧ p.pending = false ∧ p.handler = none ∧ p.mainline = none ∧
      p.log.Perm ((Machine.run step start moments).exits.map logTerminationStatus) := by
  obtain ⟨awaited,balanced⟩ := run_kept moments
  generalize Machine.run step start moments = p at enough awaited balanced ⊢
  have kept := Machine.invariant_run (fun q : Parent => q.Balanced ∧ q.exits = p.exits)
    (fun q choice kept =>
      ⟨(advance_change q choice).balanced kept.1,(advance_exits q choice).trans kept.2⟩)
    ⟨balanced,rfl⟩ choices
  have done := Machine.run_settles Awaited work
    (fun q choice awaited => (advance_change q choice).awaited awaited)
    (fun q choice awaited => advance_work q choice awaited) awaited
    ((work_le balanced).trans enough)
  have final := work_eq_zero kept.1 done
  rw [kept.2] at final
  exact final

/-- Two more children end between the waitpid() for the first one and its log. -/
theorem terminations_logged_three :
    let moments : List FamilyMoment := [.fork 101,.fork 102,.fork 103,.exit 102 0,.deliver,
      .statement 0,.exit 101 256,.exit 103 15]
    let p := Machine.run advance (Machine.run step start moments) (List.replicate 21 0)
    p.zombies = [] ∧ p.pending = false ∧ p.handler = none ∧ p.mainline = none ∧
      p.log.Perm ([⟨102,0⟩,⟨101,256⟩,⟨103,15⟩].map logTerminationStatus) :=
  terminations_logged [.fork 101,.fork 102,.fork 103,.exit 102 0,.deliver,
    .statement 0,.exit 101 256,.exit 103 15] (List.replicate 21 0) (by decide)

end Parent
end SerialIp
