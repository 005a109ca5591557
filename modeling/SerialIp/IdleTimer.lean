import Mathlib.Data.List.DropRight
import SerialIp.SessionLoop

/-! The idle timer of the session loop. The time that select() takes is added up until a
descriptor is ready; the sum is looked at before the next select(), which is still made. -/
namespace SerialIp
open Library

def Turn.quiet (turn : Turn) : Bool :=
  match turn.selected with
  | .error | .timeout => true
  | .ready _ => false

/-- The time spent in select() since it last had a descriptor ready. -/
def idleTime (turns : List Turn) : Int :=
  ((turns.rtakeWhile Turn.quiet).map Turn.elapsed).sum

theorem idleTime_concat (turns : List Turn) (turn : Turn) : idleTime (turns ++ [turn]) =
    if turn.quiet then idleTime turns+turn.elapsed else 0 := by
  unfold idleTime
  split
  · rename_i quiet
    rw [List.rtakeWhile_concat_pos _ _ _ quiet,List.map_append,List.sum_append,List.map_singleton,
      List.sum_singleton]
  · rename_i ready
    rw [List.rtakeWhile_concat_neg _ _ _ ready]
    rfl

namespace SessionLoop

theorem checkIdle_idleCnt (conf : SessionConf) (t : SessionLoop) :
    (t.checkIdle conf).idleCnt = t.idleCnt := by
  unfold checkIdle
  split
  · rfl
  · rfl

theorem checkIdle_idle {conf : SessionConf} {t : SessionLoop} (awake : t.idle = false) :
    (t.checkIdle conf).idle ↔ 0 < conf.idletimer ∧ conf.idletimer ≤ t.idleCnt := by
  unfold checkIdle
  rw [awake]
  split
  · rename_i due
    exact iff_of_true rfl ⟨due.1,due.2.1⟩
  · rename_i early
    rw [awake]
    exact iff_of_false Bool.false_ne_true fun due => early ⟨due.1,due.2,rfl⟩

theorem fromSocket_idle (conf : SessionConf) (turn : Turn) (t : SessionLoop) :
    (t.fromSocket conf turn).idle = t.idle ∧ (t.fromSocket conf turn).idleCnt = t.idleCnt := by
  unfold fromSocket
  split
  · exact ⟨rfl,rfl⟩
  · dsimp only
    split
    · exact ⟨rfl,rfl⟩
    · exact ⟨rfl,rfl⟩

theorem fromSerial_idle (conf : SessionConf) (turn : Turn) (t : SessionLoop) :
    (t.fromSerial conf turn).idle = t.idle ∧ (t.fromSerial conf turn).idleCnt = t.idleCnt := by
  unfold fromSerial
  split
  · exact ⟨rfl,rfl⟩
  · dsimp only
    split
    · exact ⟨rfl,rfl⟩
    · exact ⟨rfl,rfl⟩

/-- One turn: whatever is read in it, only select() moves the counter. -/
theorem turn_idle (conf : SessionConf) (t : SessionLoop) (turn : Turn) :
    (t.turn conf turn).1.idle = (t.checkIdle conf).idle ∧ (t.turn conf turn).1.idleCnt =
      if turn.quiet then t.idleCnt+turn.elapsed else 0 := by
  have count := checkIdle_idleCnt conf t
  unfold SessionLoop.turn Turn.quiet
  dsimp only
  cases turn.selected with
  | error | timeout => exact ⟨rfl,congrArg (· + turn.elapsed) count⟩
  | ready readFds =>
    dsimp only
    have socket := fromSocket_idle conf turn {t.checkIdle conf with idleCnt := 0}
    by_cases readable : Descriptor.sockfd ∈ readFds
    · simp only [readable,if_true,true_and]
      split
      · exact socket
      · have serial := fromSerial_idle conf turn
          ({t.checkIdle conf with idleCnt := 0}.fromSocket conf turn)
        exact ⟨serial.1.trans socket.1,serial.2.trans socket.2⟩
    · simp only [readable,if_false,false_and]
      exact fromSerial_idle conf turn {t.checkIdle conf with idleCnt := 0}

theorem running_awake {t : SessionLoop} (running : t.running) : t.idle = false := by
  simp only [SessionLoop.running,Bool.and_eq_true,Bool.not_eq_true'] at running
  exact running.1.2

theorem run_stopped {conf : SessionConf} {t : SessionLoop} (stopped : t.running = false)
    (turns : List Turn) : Machine.run (step conf) t turns = t :=
  Machine.invariant_run (· = t) (fun u turn same => by
    rw [same,step,if_neg (by simp [stopped])]) rfl turns

def after (conf : SessionConf) (s : Session) (turns : List Turn) : SessionLoop :=
  Machine.run (step conf) (start conf s) turns

section
variable {conf : SessionConf} {s : Session} {turns : List Turn}

theorem after_concat (turn : Turn) (running : (after conf s turns).running) :
    after conf s (turns ++ [turn]) = ((after conf s turns).turn conf turn).1 := by
  unfold after at running ⊢
  rw [Machine.run_concat,step,if_pos running]

theorem after_append (turns later : List Turn) :
    after conf s (turns ++ later) = Machine.run (step conf) (after conf s turns) later :=
  List.foldl_append

theorem running_before {turn : Turn} (running : (after conf s (turns ++ [turn])).running) :
    (after conf s turns).running := by
  by_contra stopped
  rw [after_append,run_stopped (Bool.eq_false_iff.mpr stopped)] at running
  exact stopped running

/-- While the loop goes on, the counter is the time since a descriptor was ready. -/
theorem after_idleCnt (running : (after conf s turns).running) :
    (after conf s turns).idleCnt = idleTime turns := by
  induction turns using List.reverseRecOn with
  | nil => rfl
  | append_singleton turns turn ih =>
    have before := running_before running
    rw [after_concat turn before,(turn_idle conf _ turn).2,ih before,idleTime_concat]

theorem after_idle (turn : Turn) (running : (after conf s turns).running) :
    (after conf s (turns ++ [turn])).idle ↔
      0 < conf.idletimer ∧ conf.idletimer ≤ idleTime turns := by
  rw [after_concat turn running,(turn_idle conf _ turn).1,checkIdle_idle (running_awake running),
    after_idleCnt running]

end

structure IdleExact (conf : SessionConf) (s : Session) (turns : List Turn) : Prop where
  /-- Idle is set in the turn that finds the time up, and in no other. -/
  due : ∀ before turn, before ++ [turn] <+: turns → (after conf s before).running →
    ((after conf s (before ++ [turn])).idle ↔
      0 < conf.idletimer ∧ conf.idletimer ≤ idleTime before)
  /-- That turn is the last one. -/
  last : ∀ before turn later, turns = before ++ turn::later → (after conf s before).running →
    (after conf s (before ++ [turn])).idle →
      (after conf s (before ++ [turn])).running = false ∧
        after conf s turns = after conf s (before ++ [turn])
  off : conf.idletimer = 0 → (after conf s turns).idle = false
  awake : (∀ before turn, before ++ [turn] <+: turns → idleTime before < conf.idletimer) →
    (after conf s turns).idle = false

theorem idle_false {conf : SessionConf} {s : Session} {turns : List Turn}
    (early : ∀ before turn, before ++ [turn] <+: turns →
      ¬(0 < conf.idletimer ∧ conf.idletimer ≤ idleTime before)) :
    (after conf s turns).idle = false := by
  induction turns using List.reverseRecOn with
  | nil => rfl
  | append_singleton turns turn ih =>
    have awake := ih fun before turn initial => early before turn (initial.trans (by simp))
    by_cases running : (after conf s turns).running
    · exact Bool.eq_false_iff.mpr
        (mt (after_idle turn running).mp (early turns turn List.prefix_rfl))
    · rw [after_append,run_stopped (Bool.eq_false_iff.mpr running)]
      exact awake

/-- In every run: idle is set exactly in the turn that begins when the idle time has
reached the timer, which is the last turn, and never while the timer is off. -/
theorem idle_exact (conf : SessionConf) (s : Session) (turns : List Turn) :
    IdleExact conf s turns where
  due before turn _ running := after_idle turn running
  last before turn later split running idle := by
    have stopped : (after conf s (before ++ [turn])).running = false := by
      simp [SessionLoop.running,idle]
    refine ⟨stopped,?_⟩
    rw [split,List.append_cons,after_append,run_stopped stopped]
  off none := idle_false fun _ _ _ due => by
    rw [none] at due
    exact lt_irrefl 0 due.1
  awake early := idle_false fun before turn initial due =>
    not_lt.mpr due.2 (early before turn initial)

end SessionLoop
end SerialIp
