import SerialIp.Servers
import Mathlib.Data.List.Pairwise

/-! The connections of a server. No two children have a descriptor of the same one, none is
served twice, and the listener is back at its own descriptors whenever it waits. -/
namespace SerialIp.Servers
open Library Library.Program Library.Kernel

/-- A child has no connection but the one that it was created for. -/
def Private (p : Own) : Prop :=
  ∀ m, p.serves = some m → ∀ fd n, p.descriptors fd = some (.connection n) → n = m

/-- No connection is open. -/
def Clean (table : Table) : Prop := ∀ fd n, table fd ≠ some (.connection n)

/-- The descriptors of the process that a connection is served by. -/
def serving (server : ServerType) (sockfd : Nat) (base : Table) (fd n : Nat) : Table :=
  Function.update (if server = .concurrent then Function.update base sockfd none else base) fd
    (some (.connection n))

section
variable (server : ServerType) (sockfd : Nat) (base : Table)

structure Waiting (p : Own) : Prop where
  serves : p.serves = none
  ticket : p.ticket = none
  descriptors : p.descriptors = base

/-- In handle_network_connection in front of the session and behind it. -/
structure Serves (child : Option Nat) (fd n : Nat) (p : Own) : Prop where
  ticket : p.ticket = some n
  serves : p.serves = child
  own : child = none ∨ child = some n
  descriptors : p.descriptors = serving server sockfd base fd n

structure Served (child : Option Nat) (fd n : Nat) (p : Own) : Prop where
  ticket : p.ticket = none
  serves : p.serves = child
  own : child = none ∨ child = some n
  descriptors : p.descriptors = serving server sockfd base fd n

def Due : ServerCall → Own → Prop
  | .accept _,p => Waiting base p
  | .fork,p => p.serves = none ∧ p.ticket ≠ none
  | .parentAcceptSocketConnection fd,p => Private p ∧ ∃ child n, Serves server sockfd base child fd n p
  | _,p => Private p

def Gone (p : Own) : Prop := p.descriptors = fun _ => none

end

section
variable {server : ServerType} {sockfd : Nat} {base : Table} {p : Own}

theorem Private.parent (null : p.serves = none) : Private p := by
  intro m child
  rw [null] at child
  cases child

theorem Due.confidential {c : ServerCall} (due : Due server sockfd base c p) : Private p := by
  cases c with
  | accept fd => exact .parent due.serves
  | fork => exact .parent due.1
  | parentAcceptSocketConnection fd => exact due.1
  | readConf | sighandler | close fd | resetSignals | chdir directory | setgid gid | setuid uid
  | disconnect fd | exit status => exact due

theorem Waiting.reload (waiting : Waiting base p) (hangup : Hangup) : Waiting base (p.reload hangup) :=
  ⟨waiting.serves,waiting.ticket,waiting.descriptors⟩

theorem Served.reload {child : Option Nat} {fd n : Nat} (served : Served server sockfd base child fd n p)
    (hangup : Hangup) : Served server sockfd base child fd n (p.reload hangup) :=
  ⟨served.ticket,served.serves,served.own,served.descriptors⟩

theorem stable_waiting : (kernel server sockfd).Stable (Waiting base) :=
  stable_reload fun _ hangup waiting => waiting.reload hangup

theorem stable_serves {child : Option Nat} {fd n : Nat} :
    (kernel server sockfd).Stable (Serves server sockfd base child fd n) :=
  stable_reload fun _ _ serves => ⟨serves.ticket,serves.serves,serves.own,serves.descriptors⟩

theorem stable_served {child : Option Nat} {fd n : Nat} :
    (kernel server sockfd).Stable (Served server sockfd base child fd n) :=
  stable_reload fun _ hangup served => served.reload hangup

/-- The calls that have nothing to do with connections and descriptors. -/
def Identifies : ServerCall → Prop
  | .readConf | .sighandler | .resetSignals | .chdir _ | .setgid _ | .setuid _ | .disconnect _ => True
  | _ => False

/-- The part of a process that they leave alone. -/
structure Alike (p after : Own) : Prop where
  serves : after.serves = p.serves
  ticket : after.ticket = p.ticket
  descriptors : after.descriptors = p.descriptors

@[refl] theorem Alike.refl (p : Own) : Alike p p := ⟨rfl,rfl,rfl⟩

theorem answers_identity {c : ServerCall} {result : c.Result} {after : Own}
    (answers : (kernel server sockfd).Answers c p result after) (identifies : Identifies c) :
    Alike p after := by
  cases c with
  | readConf =>
    obtain ⟨_,rfl⟩ := answers_readConf answers
    rfl
  | sighandler =>
    obtain rfl | ⟨hangup,rfl⟩ := answers_sighandler answers
    · rfl
    · exact ⟨rfl,rfl,rfl⟩
  | resetSignals =>
    obtain rfl := answers_resetSignals answers
    exact ⟨rfl,rfl,rfl⟩
  | chdir directory =>
    obtain ⟨_,rfl⟩ | ⟨_,rfl⟩ := answers_chdir answers
    · rfl
    · exact ⟨rfl,rfl,rfl⟩
  | setgid gid =>
    obtain ⟨_,rfl⟩ | ⟨_,_,_,rfl⟩ := answers_setgid answers
    · rfl
    · exact ⟨rfl,rfl,rfl⟩
  | setuid uid =>
    obtain ⟨_,rfl⟩ | ⟨_,_,_,rfl⟩ := answers_setuid answers
    · rfl
    · exact ⟨rfl,rfl,rfl⟩
  | disconnect fd =>
    obtain rfl := answers_disconnect answers
    rfl
  | accept fd | fork | close fd | parentAcceptSocketConnection fd | exit status => exact identifies.elim

theorem Clean.close {table : Table} (clean : Clean table) (fd : Nat) :
    Clean (Function.update table fd none) := by
  intro other n
  by_cases own : other = fd
  · simp [own]
  · simpa [own] using clean other n

theorem Private.only {table : Table} {fd n : Nat} (clean : Clean table)
    (serves : p.serves = none ∨ p.serves = some n)
    (descriptors : p.descriptors = Function.update table fd (some (.connection n))) : Private p := by
  intro m child other number held
  obtain null | same := serves
  · rw [null] at child
    cases child
  rw [same] at child
  obtain rfl := Option.some.inj child
  rw [descriptors] at held
  by_cases own : other = fd
  · rw [own,Function.update_self] at held
    cases held
    rfl
  · rw [Function.update_of_ne own] at held
    exact absurd held (clean other number)

variable (clean : Clean base)
include clean

theorem Serves.confidential {child : Option Nat} {fd n : Nat}
    (serves : Serves server sockfd base child fd n p) : Private p := by
  refine .only ?_ (serves.serves ▸ serves.own) serves.descriptors
  split
  · exact clean.close sockfd
  · exact clean

theorem Served.confidential {child : Option Nat} {fd n : Nat}
    (served : Served server sockfd base child fd n p) : Private p := by
  refine .only ?_ (served.serves ▸ served.own) served.descriptors
  split
  · exact clean.close sockfd
  · exact clean

section
variable {α : Type} {post : α → Own → Prop} {child : Option Nat} {fd n : Nat}

theorem owes_identifies {c : ServerCall} {second : c.Result → Serving α} (identifies : Identifies c)
    (serves : Serves server sockfd base child fd n p)
    (rest : ∀ q result, Serves server sockfd base child fd n q →
      (kernel server sockfd).Owes (Due server sockfd base) post (second result) q) :
    (kernel server sockfd).Owes (Due server sockfd base) post (invoke c >>= second) p := by
  refine Owes.call stable_serves serves ?_ ?_
  · intro q serves
    have confidential := serves.confidential clean
    cases c with
    | readConf | sighandler | resetSignals | chdir directory | setgid gid | setuid uid | disconnect fd =>
      exact confidential
    | accept fd | fork | close fd | parentAcceptSocketConnection fd | exit status => exact identifies.elim
  · intro q result after serves answers
    have alike := answers_identity answers identifies
    exact rest after result ⟨alike.ticket.trans serves.ticket,alike.serves.trans serves.serves,serves.own,
      alike.descriptors.trans serves.descriptors⟩

theorem owes_exit_serves (status : Int) (serves : Serves server sockfd base child fd n p) :
    (kernel server sockfd).Owes (Due server sockfd base) post (exit status) p :=
  owes_exit stable_serves serves fun _ serves => serves.confidential clean

end

theorem handleNetworkConnection_serves {child : Option Nat} {fd n : Nat}
    (serves : Serves server sockfd base child fd n p) :
    (kernel server sockfd).Owes (Due server sockfd base)
      (fun _ => Served server sockfd base child fd n) (handleNetworkConnection fd) p := by
  have reset (conf : Conf) (q : Own) (serves : Serves server sockfd base child fd n q) :
      (kernel server sockfd).Owes (Due server sockfd base)
        (fun _ => Serves server sockfd base child fd n)
        (if conf.serverType = .concurrent then resetSignals else pure ()) q := by
    split
    · exact owes_identifies clean trivial serves fun q _ serves _ => stable_serves.later serves
    · exact fun _ => stable_serves.later serves
  refine owes_identifies clean trivial serves fun q conf serves => ?_
  refine (reset conf q serves).bind fun _ q serves => ?_
  refine owes_identifies clean trivial serves fun q conf serves => ?_
  refine owes_identifies clean trivial serves fun q ret serves => ?_
  split
  · exact owes_exit_serves clean 1 serves
  refine owes_identifies clean trivial serves fun q conf serves => ?_
  refine owes_identifies clean trivial serves fun q ret serves => ?_
  split
  · exact owes_exit_serves clean 1 serves
  refine owes_identifies clean trivial serves fun q conf serves => ?_
  refine owes_identifies clean trivial serves fun q ret serves => ?_
  split
  · exact owes_exit_serves clean 1 serves
  refine Owes.call stable_serves serves (fun q serves => ⟨serves.confidential clean,child,n,serves⟩)
    fun q ret after serves answers => ?_
  obtain ⟨globals,rfl⟩ := answers_parentAcceptSocketConnection answers
  have served : Served server sockfd base child fd n {q with globals := globals, ticket := none} :=
    ⟨rfl,serves.serves,serves.own,serves.descriptors⟩
  refine Owes.call stable_served served (fun q served => served.confidential clean)
    fun q _ after served answers => ?_
  obtain rfl := answers_disconnect answers
  exact fun _ => stable_served.later served

omit clean in
/-- The rounds of all servers begin alike. -/
theorem owes_accept_waiting {fd : Nat} {next : Option Nat → Serving Unit} (waiting : Waiting base p)
    (fails : next none = sighandler)
    (rest : ∀ q new n, q.serves = none → q.ticket = some n → base new = none →
      q.descriptors = Function.update base new (some (.connection n)) →
      (kernel server sockfd).Owes (Due server sockfd base) (fun _ => Waiting base) (next (some new)) q) :
    (kernel server sockfd).Owes (Due server sockfd base) (fun _ => Waiting base) (accept fd >>= next) p := by
  refine Owes.call stable_waiting waiting (fun _ waiting => waiting) fun q result after waiting answers => ?_
  obtain ⟨rfl,rfl⟩ | ⟨new,n,rfl,free,rfl⟩ := answers_accept answers
  · rw [fails]
    refine Owes.call stable_waiting waiting (fun _ waiting => .parent waiting.serves)
      fun q _ after waiting answers => ?_
    have alike := answers_identity answers trivial
    have waiting : Waiting base after := ⟨alike.serves.trans waiting.serves,
      alike.ticket.trans waiting.ticket,alike.descriptors.trans waiting.descriptors⟩
    exact fun _ => stable_waiting.later waiting
  · rw [waiting.descriptors] at free
    exact rest _ new n waiting.serves rfl free (congrArg (Function.update · new _) waiting.descriptors)

omit clean in
theorem owes_close_waiting {fd n : Nat} (parent : p.serves = none) (unused : p.ticket = none)
    (free : base fd = none) (table : p.descriptors = Function.update base fd (some (.connection n))) :
    (kernel server sockfd).Owes (Due server sockfd base) (fun _ => Waiting base)
      (do let _ ← close fd) p := by
  have stable : (kernel server sockfd).Stable fun p : Own => p.serves = none ∧ p.ticket = none ∧
      p.descriptors = Function.update base fd (some (.connection n)) := stable_reload fun _ _ => id
  refine Owes.call stable ⟨parent,unused,table⟩ (fun _ held => .parent held.1)
    fun q _ after held answers => ?_
  obtain rfl := answers_close answers
  have waiting : Waiting base {q with descriptors := Function.update q.descriptors fd none} := by
    refine ⟨held.1,held.2.1,?_⟩
    rw [held.2.2]
    exact reopened free _
  exact fun _ => stable_waiting.later waiting

theorem concurrentServer_waits (waiting : Waiting base p) (listening : base sockfd = some .listening) :
    (kernel .concurrent sockfd).Owes (Due .concurrent sockfd base)
      (fun _ => Waiting base) (concurrentServer sockfd handleNetworkConnection) p := by
  refine owes_accept_waiting waiting rfl fun q new n parent ticket free table => ?_
  have stable : (kernel .concurrent sockfd).Stable fun p : Own => p.serves = none ∧ p.ticket = some n ∧
      p.descriptors = Function.update base new (some (.connection n)) := stable_reload fun _ _ => id
  refine Owes.call stable ⟨parent,ticket,table⟩ (fun q held => ⟨held.1,by simp [held.2.1]⟩)
    fun q childpid after held answers => ?_
  obtain ⟨parent,ticket,table⟩ := held
  obtain ⟨nonzero,rfl⟩ | ⟨rfl,rfl⟩ := answers_fork answers
  · rw [if_neg nonzero]
    exact owes_close_waiting parent rfl free table
  · rw [if_pos rfl]
    have stable : (kernel .concurrent sockfd).Stable fun p : Own => p.serves = some n ∧
        p.ticket = some n ∧ p.descriptors = Function.update base new (some (.connection n)) :=
      stable_reload fun _ _ => id
    refine Owes.call stable ⟨ticket,ticket,table⟩ (fun q held => .only clean (Or.inr held.1) held.2.2)
      fun q _ after held answers => ?_
    obtain rfl := answers_close answers
    obtain ⟨child,ticket,table⟩ := held
    have apart : new ≠ sockfd := by
      intro same
      rw [same,listening] at free
      cases free
    have serves : Serves .concurrent sockfd base (some n) new n
        {q with descriptors := Function.update q.descriptors sockfd none} := by
      refine ⟨ticket,child,Or.inr rfl,?_⟩
      rw [table]
      exact Function.update_comm apart ..
    exact (handleNetworkConnection_serves clean serves).bind fun ret q served =>
      owes_exit stable_served served fun q served => served.confidential clean

theorem iterativeServer_waits (inProcess : server ≠ .concurrent) (waiting : Waiting base p) :
    (kernel server sockfd).Owes (Due server sockfd base) (fun _ => Waiting base)
      (iterativeServer sockfd handleNetworkConnection) p := by
  refine owes_accept_waiting waiting rfl fun q new n parent ticket free table => ?_
  have alone : serving server sockfd base new n = Function.update base new (some (.connection n)) := by
    unfold serving
    rw [if_neg inProcess]
  refine (handleNetworkConnection_serves clean ⟨ticket,parent,Or.inl rfl,?_⟩).bind fun _ q served => ?_
  · rw [alone,table]
  · exact owes_close_waiting served.serves served.ticket free (served.descriptors.trans alone)

theorem serverInit_waits (listening : base sockfd = some .listening) (waiting : Waiting base p) :
    (kernel server sockfd).Owes (Due server sockfd base) (fun _ => Waiting base)
      (serverInit server sockfd handleNetworkConnection) p := by
  cases server with
  | concurrent => exact concurrentServer_waits clean waiting listening
  | iterative => exact iterativeServer_waits clean (by simp) waiting
  | rawTcpGateway => exact iterativeServer_waits clean (by simp) waiting

end
section
variable {server : ServerType} {sockfd : Nat} {base : Table}

abbrev ServerProcess := Proc ServerCall ServerCall.Result Own

/-- The connection that a process serves or may still pass on. -/
def claim (own : Own) : Option Nat := own.serves.or own.ticket

def holders (share : Own → Option Nat) (n : Nat) (all : List ServerProcess) : Nat :=
  all.countP (share ·.own == some n)

/-- An accepted connection has one holder at most, and one still to come has none. -/
def Once (accepted : Nat) (count : Nat → Nat) : Prop := ∀ n, count n ≤ if n < accepted then 1 else 0

/-- Nothing is held more often than before but what has been accepted since. -/
structure Passes (before after : Nat) (count later : Nat → Nat) : Prop where
  accepted : before ≤ after
  passed : ∀ n, later n ≤ count n + if before ≤ n ∧ n < after then 1 else 0

theorem Once.pass {before after : Nat} {count later : Nat → Nat} (once : Once before count)
    (passes : Passes before after count later) : Once after later := by
  intro n
  have now := once n
  have onward := passes.passed n
  have grows := passes.accepted
  split_ifs at now onward ⊢ <;> omega

theorem holders_cons (share : Own → Option Nat) (n : Nat) (p : ServerProcess) (all : List ServerProcess) :
    holders share n (p::all) = (if share p.own = some n then 1 else 0) + holders share n all := by
  simp [holders,List.countP_cons,Nat.add_comm]

@[simp] theorem holders_nil (share : Own → Option Nat) (n : Nat) : holders share n [] = 0 := rfl

/-- The counts of a turn, of the process that takes it and of the shared part. -/
structure TurnPasses (p : ServerProcess) (s : Connections)
    (next : ServerProcess × List ServerProcess × Connections) : Prop where
  claims : Passes s.accepted next.2.2.accepted (fun n => holders claim n [p])
    fun n => holders claim n (next.1::next.2.1)
  tickets : Passes s.accepted next.2.2.accepted (fun n => s.sessions.count n + holders Own.ticket n [p])
    fun n => next.2.2.sessions.count n + holders Own.ticket n (next.1::next.2.1)

theorem holders_le {share : Own → Option Nat} {n : Nat} {p q : ServerProcess}
    (fewer : share q.own = some n → share p.own = some n) : holders share n [q] ≤ holders share n [p] := by
  simp only [holders_cons,holders_nil]
  split_ifs with more kept
  · exact le_rfl
  · exact absurd (fewer more) kept
  · exact Nat.zero_le _
  · exact le_rfl

theorem TurnPasses.same {p q : ServerProcess} {s : Connections} (serves : q.own.serves = p.own.serves)
    (ticket : q.own.ticket = p.own.ticket ∨ q.own.ticket = none) : TurnPasses p s (q,[],s) := by
  have fewer {n : Nat} (held : q.own.ticket = some n) : p.own.ticket = some n := by
    obtain same | none := ticket
    · rw [← same,held]
    · rw [none] at held
      cases held
  refine ⟨⟨le_rfl,fun n => ?_⟩,le_rfl,fun n => ?_⟩
  · refine (holders_le fun held => ?_).trans (Nat.le_add_right ..)
    simp only [claim,serves,Option.or_eq_some_iff] at held ⊢
    exact held.imp_right fun ⟨null,held⟩ => ⟨null,fewer held⟩
  · exact (Nat.add_le_add_left (holders_le fewer) _).trans (Nat.le_add_right ..)

/-- The calls that have nothing to do with who holds what. -/
def Plain (c : ServerCall) : Prop :=
  match c with
  | .accept _ | .fork | .parentAcceptSocketConnection _ | .exit _ => False
  | _ => True

theorem act_plain {c : ServerCall} (plain : Plain c) (choice : Outcome) (p : Own) (s : Connections) :
    copy c choice p = none ∧ ∃ result after, act c choice p s = (.answers (result,after),s) ∧
      after.serves = p.serves ∧ after.ticket = p.ticket := by
  have change (store : Ids → Own) (ids : Option Ids) (serves : ∀ new, (store new).serves = p.serves)
      (ticket : ∀ new, (store new).ticket = p.ticket) :
      (p.change store ids).2.serves = p.serves ∧ (p.change store ids).2.ticket = p.ticket := by
    cases ids with
    | none => exact ⟨rfl,rfl⟩
    | some new => exact ⟨serves new,ticket new⟩
  cases c with
  | accept fd | fork | parentAcceptSocketConnection fd | exit status => exact plain.elim
  | readConf | close fd | resetSignals | disconnect fd => exact ⟨rfl,_,_,rfl,rfl,rfl⟩
  | sighandler | chdir directory => cases choice <;> exact ⟨rfl,_,_,rfl,rfl,rfl⟩
  | setgid gid | setuid uid =>
    cases choice with
    | fails | reloads hangup | session course => exact ⟨rfl,_,_,rfl,rfl,rfl⟩
    | gives number => exact ⟨rfl,_,_,rfl,change _ _ (fun _ => rfl) fun _ => rfl⟩

theorem TurnPasses.accept {p q : ServerProcess} {s : Connections} (waiting : Waiting base p.own)
    (serves : q.own.serves = p.own.serves) (ticket : q.own.ticket = some s.accepted) :
    TurnPasses p s (q,[],{s with accepted := s.accepted+1}) := by
  have fresh (n : Nat) : (if some s.accepted = some n then 1 else 0) ≤
      if s.accepted ≤ n ∧ n < s.accepted+1 then 1 else 0 := by
    simp only [Option.some.injEq]
    split_ifs <;> omega
  refine ⟨⟨Nat.le_succ _,fun n => ?_⟩,Nat.le_succ _,fun n => ?_⟩
  · simpa [holders_cons,claim,serves,ticket,waiting.serves,waiting.ticket] using fresh n
  · simpa [holders_cons,ticket,waiting.ticket] using fresh n

theorem TurnPasses.fork {p q child : ServerProcess} {s : Connections} (parent : p.own.serves = none)
    (serves : q.own.serves = none) (ticket : q.own.ticket = none) (own : child.own.serves = p.own.ticket)
    (same : child.own.ticket = p.own.ticket) : TurnPasses p s (q,[child],s) := by
  refine ⟨⟨le_rfl,fun n => ?_⟩,le_rfl,fun n => ?_⟩
  · simp [holders_cons,claim,serves,ticket,own,same,parent]
  · simp [holders_cons,ticket,same]

theorem TurnPasses.session {p q : ServerProcess} {s : Connections} {n : Nat} (had : p.own.ticket = some n)
    (serves : q.own.serves = p.own.serves) (ticket : q.own.ticket = none) :
    TurnPasses p s (q,[],{s with sessions := s.sessions ++ [n]}) := by
  refine ⟨⟨le_rfl,(TurnPasses.same serves (Or.inr ticket)).claims.passed⟩,le_rfl,fun m => ?_⟩
  simp [holders_cons,ticket,had,List.count_append,List.count_singleton]

theorem turn_passes (choice : Outcome) {p : ServerProcess} (s : Connections)
    (upholds : (kernel server sockfd).Upholds (Due server sockfd base) (Waiting base) Gone p) :
    TurnPasses p s ((kernel server sockfd).turn choice p s) := by
  obtain ⟨code,own⟩ := p
  cases code with
  | none => exact .same rfl (Or.inl rfl)
  | some code =>
    cases code with
    | done value => exact .same rfl (Or.inl rfl)
    | call c next =>
      have due : Due server sockfd base c own := upholds.called rfl
      by_cases plain : Plain c
      · obtain ⟨copied,result,after,acts,serves,ticket⟩ := act_plain plain choice own s
        have turn : (kernel server sockfd).turn choice ⟨some (.call c next),own⟩ s =
            (⟨some (next result),after⟩,[],s) := by
          simp only [turn,kernel,acts,copied,answered,Kernel.created]
        rw [turn]
        exact .same serves (Or.inl ticket)
      cases c with
      | accept fd =>
        cases choice with
        | fails | reloads hangup | session course => exact .same rfl (Or.inl rfl)
        | gives new =>
          by_cases free : own.descriptors new = none
          · have acts : act (.accept fd) (.gives new) own s = (.answers (some new,{own with
                inForce := [own.conf]
                descriptors := Function.update own.descriptors new (some (.connection s.accepted))
                ticket := some s.accepted}),{s with accepted := s.accepted+1}) := if_pos free
            simp only [turn,kernel,acts]
            exact .accept due rfl rfl
          · have acts : act (.accept fd) (.gives new) own s = (.answers (none,own),s) := if_neg free
            simp only [turn,kernel,acts]
            exact .same rfl (Or.inl rfl)
      | fork =>
        cases choice with
        | fails | reloads hangup | session course => exact .same rfl (Or.inr rfl)
        | gives pid => exact .fork due.1 due.1 rfl rfl rfl
      | parentAcceptSocketConnection fd =>
        cases choice with
        | fails | gives number | reloads hangup => exact .same rfl (Or.inl rfl)
        | session course =>
          cases returns : course.run fd own with
          | none =>
            simp only [turn,kernel,act,returns]
            exact .same rfl (Or.inl rfl)
          | some returned =>
            obtain ⟨ret,after⟩ := returned
            obtain ⟨globals,rfl⟩ := Course.run_cases returns
            obtain ⟨_,child,n,serves⟩ := due
            have opened : own.descriptors fd = some (.connection n) := by
              rw [serves.descriptors]
              exact Function.update_self ..
            simp only [turn,kernel,act,returns,opened]
            exact .session serves.ticket rfl rfl
      | exit status => exact .same rfl (Or.inr rfl)
      | readConf | sighandler | close fd | resetSignals | chdir directory | setgid gid | setuid uid
      | disconnect fd => exact absurd trivial plain

theorem interrupt_passes (signal : Hangup) {p : ServerProcess} {s : Connections} :
    TurnPasses p s ((kernel server sockfd).interrupt signal p,[],s) := by
  obtain ⟨code,own⟩ := p
  cases code with
  | none => exact .same rfl (Or.inl rfl)
  | some code =>
    have alike : Alike own (own.handle signal) := by
      unfold Own.handle
      split
      · exact ⟨rfl,rfl,rfl⟩
      · rfl
    exact .same alike.serves (Or.inl alike.ticket)

/-- A connection has one process at most with a claim on it, and is served once at most. -/
structure Accounted (s : System) : Prop where
  claims : Once s.shared.accepted fun n => holders claim n s.all
  tickets : Once s.shared.accepted fun n => s.shared.sessions.count n + holders Own.ticket n s.all

theorem Accounted.pass {s after : System} {p : ServerProcess} {others : List ServerProcess}
    {next : ServerProcess × List ServerProcess × Connections} (accounted : Accounted s)
    (passes : TurnPasses p s.shared next) (before : s.all.Perm (p::others))
    (all : after.all.Perm (next.1::others ++ next.2.1)) (shared : after.shared = next.2.2) :
    Accounted after := by
  have was (share : Own → Option Nat) (n : Nat) :
      holders share n s.all = holders share n [p] + holders share n others := by
    rw [holders,before.countP_eq,← List.singleton_append,List.countP_append]
    rfl
  have is (share : Own → Option Nat) (n : Nat) :
      holders share n after.all = holders share n (next.1::next.2.1) + holders share n others := by
    rw [holders,all.countP_eq,List.cons_append,List.countP_cons,List.countP_append,holders_cons,
      holders,holders]
    simp only [beq_iff_eq]
    omega
  constructor
  · refine accounted.claims.pass ⟨?_,fun n => ?_⟩
    · rw [shared]
      exact passes.claims.accepted
    · have onward := passes.claims.passed n
      rw [was,is,shared]
      omega
  · refine accounted.tickets.pass ⟨?_,fun n => ?_⟩
    · rw [shared]
      exact passes.tickets.accepted
    · have onward := passes.tickets.passed n
      rw [was,is,shared]
      omega

theorem step_accounted {s : System} (turn : Dispatch Outcome Hangup) (accounted : Accounted s)
    (all : ∀ p ∈ s.all, (kernel server sockfd).Upholds (Due server sockfd base) (Waiting base) Gone p) :
    Accounted ((kernel server sockfd).step s turn) := by
  obtain same | ⟨p,others,before,⟨shared,after⟩ | ⟨signal,shared,after⟩ | ⟨choice,shared,after⟩⟩ :=
    step_cases (k := kernel server sockfd) s turn
  · rw [same]
    exact accounted
  · have passes : TurnPasses p s.shared (⟨none,(kernel server sockfd).leave p.own⟩,[],s.shared) :=
      .same rfl (Or.inr rfl)
    exact accounted.pass passes before (by simpa using after) shared
  · exact accounted.pass (interrupt_passes signal) before (by simpa using after) shared
  · exact accounted.pass (turn_passes choice s.shared (all p (before.mem_iff.mpr List.mem_cons_self)))
      before after shared

/-- What a run never breaks. -/
structure Isolated (server : ServerType) (sockfd : Nat) (base : Table)
    (s : System) : Prop where
  accounted : Accounted s
  upholds : ∀ p ∈ s.all, (kernel server sockfd).Upholds (Due server sockfd base) (Waiting base) Gone p

theorem run_isolated {listener : Own} (clean : Clean listener.descriptors)
    (listening : listener.descriptors sockfd = some .listening) (parent : listener.serves = none)
    (unused : listener.ticket = none) (turns : List (Dispatch Outcome Hangup)) :
    Isolated server sockfd listener.descriptors
      (Machine.run (kernel server sockfd).step (start listener) turns) := by
  refine Machine.invariant_run (Isolated server sockfd listener.descriptors) ?_ ?_ turns
  · intro s turn isolated
    refine ⟨step_accounted turn isolated.accounted isolated.upholds,?_⟩
    exact step_upholds (fun p waiting => serverInit_waits clean listening waiting)
      (fun _ => rfl) turn isolated.upholds
  · refine ⟨⟨fun n => ?_,fun n => ?_⟩,?_⟩
    · simp [start,holders,claim,parent,unused]
    · simp [start,holders,unused]
    · have waiting : Waiting listener.descriptors listener := ⟨parent,unused,rfl⟩
      exact List.forall_mem_singleton.mpr fun _ => stable_waiting.later waiting

/-- The connection that a process is in a session for. -/
def underway (p : ServerProcess) : Option Nat :=
  match session p with
  | some fd =>
    match p.own.descriptors fd with
    | some (.connection n) => some n
    | _ => none
  | none => none

theorem underway_ticket {p : ServerProcess} {n : Nat} (within : underway p = some n)
    (upholds : (kernel server sockfd).Upholds (Due server sockfd base) (Waiting base) Gone p) :
    p.own.ticket = some n := by
  unfold underway at within
  split at within
  · rename_i fd session
    obtain ⟨next,code⟩ := session_code session
    obtain ⟨_,_,m,serves⟩ := upholds.called code
    rw [serves.descriptors,serving,Function.update_self] at within
    exact serves.ticket.trans within
  · cases within

theorem upholds_private {p : ServerProcess}
    (upholds : (kernel server sockfd).Upholds (Due server sockfd base) (Waiting base) Gone p) :
    Private p.own := by
  by_cases alive : p.code = none
  · simp only [Upholds,alive] at upholds
    intro m child fd n held
    rw [upholds] at held
    cases held
  · exact upholds.alive alive (fun _ _ due => due.confidential) fun _ waiting => .parent waiting.serves

theorem Once.nodup {accepted : Nat} {count : Nat → Nat} (once : Once accepted count) {l : List Nat}
    (counts : ∀ n, l.count n ≤ count n) : l.Nodup := by
  refine List.nodup_iff_count.mpr fun n => (counts n).trans ((once n).trans ?_)
  split <;> decide

/-- Whatever the processes do in which order, no two children have descriptors of one
connection, the listener waits with the descriptors it started with, and a session is begun
with its connection as the only other one. -/
theorem connections_private (server : ServerType) (sockfd : Nat) (listener : Own)
    (clean : Clean listener.descriptors) (listening : listener.descriptors sockfd = some .listening)
    (parent : listener.serves = none) (unused : listener.ticket = none) (turns : List (Dispatch Outcome Hangup)) :
    let s := Machine.run (kernel server sockfd).step (start listener) turns
    (s.all.Pairwise fun p q => ∀ fd other n, p.own.descriptors fd = some (.connection n) →
        q.own.descriptors other = some (.connection n) → p.own.serves = none ∨ q.own.serves = none) ∧
      (∀ p ∈ s.all, ∀ fd next, p.code = some (.call (.accept fd) next) →
        p.own.descriptors = listener.descriptors) ∧
      ∀ p ∈ s.all, ∀ fd, session p = some fd →
        ∃ n, p.own.descriptors = serving server sockfd listener.descriptors fd n := by
  intro s
  have isolated : Isolated server sockfd listener.descriptors s :=
    run_isolated clean listening parent unused turns
  refine ⟨?_,?_,?_⟩
  · have claims : (s.all.filterMap (claim ·.own)).Nodup := by
      refine isolated.accounted.claims.nodup fun n => ?_
      rw [List.count_filterMap]
      exact le_rfl
    refine (List.pairwise_filterMap.mp claims).imp_of_mem ?_
    intro p q left right apart fd other n first second
    cases servesP : p.own.serves with
    | none => exact Or.inl rfl
    | some m =>
      cases servesQ : q.own.serves with
      | none => exact Or.inr rfl
      | some k =>
        obtain rfl := upholds_private (isolated.upholds p left) m servesP fd n first
        obtain rfl := upholds_private (isolated.upholds q right) k servesQ other n second
        exact absurd rfl (apart n (by simp [claim,servesP]) n (by simp [claim,servesQ]))
  · intro p member fd next code
    exact ((isolated.upholds p member).called code).descriptors
  · intro p member fd within
    obtain ⟨next,code⟩ := session_code within
    obtain ⟨_,_,n,serves⟩ := (isolated.upholds p member).called code
    exact ⟨n,serves.descriptors⟩

theorem rootListener_clean (conf : Conf) (serialPorts : List Pool.PooledPort) :
    Clean (rootListener conf serialPorts).descriptors := by
  intro fd n
  simp only [rootListener]
  split <;> simp

/-- A second connection, while the first one is still served by its child. -/
theorem connections_private_two :
    let listener := rootListener ⟨.concurrent,"/var/spool",1000,100⟩ []
    let enters (place : Nat) : List (Dispatch Outcome Hangup) := List.replicate 9 (.proceed place (.gives 0))
    let s := Machine.run (kernel .concurrent 3).step (start listener)
      ([.proceed 0 .fails,.proceed 0 (.gives 4),.proceed 0 (.gives 41),.proceed 0 .fails] ++ enters 1 ++
        [.proceed 0 .fails,.proceed 0 (.gives 4),.proceed 0 (.gives 42)])
    s.all.length = 3 ∧ ∃ p ∈ s.all, session p = some 4 ∧
      ∃ n, p.own.descriptors = serving .concurrent 3 listener.descriptors 4 n := by
  intro listener enters s
  have found : s.all.any (session · = some 4) := by decide +kernel
  obtain ⟨p,member,within⟩ := List.any_eq_true.mp found
  have within := of_decide_eq_true within
  obtain ⟨_,_,alone⟩ :=
    connections_private .concurrent 3 listener (rootListener_clean _ _) rfl rfl rfl
      ([.proceed 0 .fails,.proceed 0 (.gives 4),.proceed 0 (.gives 41),.proceed 0 .fails] ++ enters 1 ++
        [.proceed 0 .fails,.proceed 0 (.gives 4),.proceed 0 (.gives 42)])
  exact ⟨by decide +kernel,p,member,within,alone p member 4 within⟩

/-- No connection is served twice, by whichever processes. -/
theorem served_once (server : ServerType) (sockfd : Nat) (listener : Own)
    (clean : Clean listener.descriptors) (listening : listener.descriptors sockfd = some .listening)
    (parent : listener.serves = none) (unused : listener.ticket = none) (turns : List (Dispatch Outcome Hangup)) :
    let s := Machine.run (kernel server sockfd).step (start listener) turns
    (s.shared.sessions ++ s.all.filterMap underway).Nodup := by
  intro s
  have isolated : Isolated server sockfd listener.descriptors s :=
    run_isolated clean listening parent unused turns
  refine isolated.accounted.tickets.nodup fun n => ?_
  rw [List.count_append,List.count_filterMap]
  refine Nat.add_le_add_left (List.countP_mono_left fun p member within => ?_) _
  rw [beq_iff_eq] at within ⊢
  exact underway_ticket within (isolated.upholds p member)

/-- A device that can be locked, opened as `fd` and set. -/
def granted (fd : Nat) : (c : Pool.PortCall) → c.Result
  | .createUucpLockfile _ => some ['L']
  | .openDevice _ => (fd : Int)
  | .tcgetattr _ => some ⟨0,0,0,0⟩
  | .cfsetospeed _ | .cfsetispeed _ | .tcsetattr _ _ => (0 : Int)
  | .bfmalloc => true
  | c => Pool.lockable [] c

/-- Two connections of the iterative server, on the same descriptor. -/
theorem served_once_twice :
    let listener := rootListener ⟨.iterative,"/var/spool",1000,100⟩ [Pool.ttymxc]
    let course : Course := ⟨1,⟨0,0,0,0⟩,⟨0,0,0,0⟩,fun _ => granted 5⟩
    let round : List (Dispatch Outcome Hangup) := [.proceed 0 .fails,.proceed 0 (.gives 4)] ++
      List.replicate 7 (.proceed 0 (.gives 0)) ++
      [.proceed 0 (.session course),.proceed 0 .fails,.proceed 0 .fails]
    let s := Machine.run (kernel .iterative 3).step (start listener) (round ++ round)
    s.shared.sessions = [0,1] ∧ (s.shared.sessions ++ s.all.filterMap underway).Nodup := by
  intro listener course round
  have once := served_once .iterative 3 listener (rootListener_clean _ _) rfl rfl rfl (round ++ round)
  dsimp only at once ⊢
  exact ⟨by decide +kernel,once⟩

end

end SerialIp.Servers
