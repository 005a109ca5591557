import SerialIp.Library.Machine
import SerialIp.Library.Program
import Mathlib.Data.List.Perm.Basic

/-! Procs that take turns, each with what is left of its program and a part of the world
of its own; a call may copy the process that makes it, and a signal may change a process
between any two calls. What a program owes at each of its calls is proved along the program
alone and holds of every process in every order of turns. -/
namespace SerialIp.Library
open Program Machine Relation

structure Proc (Call : Type) (Result : Call → Type) (P : Type) where
  code : Option (Program Call Result Unit)
  own : P

structure Procs (Call : Type) (Result : Call → Type) (P S : Type) where
  all : List (Proc Call Result P)
  shared : S

/-- What comes of a call for the process that makes it. -/
inductive Reply (Answer P : Type)
  | answers (answer : Answer × P)
  | waits
  | ends

/-- The part of the process that is answered. -/
def Reply.own {Answer P : Type} : Reply Answer P → Option P
  | answers answer => some answer.2
  | waits | ends => none

/-- `act` replies to a call, `copy` is the answer in the process that a call creates, `handle`
what a signal makes of a process, `again` what a process does when its program is done and
`leave` what remains of its part when it has ended. -/
structure Kernel (Call : Type) (Result : Call → Type) (P S Choice Signal : Type) where
  act : (c : Call) → Choice → P → S → Reply (Result c) P × S
  copy : (c : Call) → Choice → P → Option (Result c × P)
  handle : Signal → P → P
  again : P → Program Call Result Unit
  leave : P → P

inductive Dispatch (Choice Signal : Type)
  | proceed (place : Nat) (choice : Choice)
  | signal (place : Nat) (signal : Signal)
  | kill (place : Nat)

namespace Kernel
variable {Call : Type} {Result : Call → Type} {P S Choice Signal α β : Type}
  (k : Kernel Call Result P S Choice Signal)

def answered (c : Call) (next : Result c → Program Call Result Unit) (p : P) :
    Reply (Result c) P → Proc Call Result P
  | .answers (result,own) => ⟨some (next result),own⟩
  | .waits => ⟨some (.call c next),p⟩
  | .ends => ⟨none,k.leave p⟩

def created {c : Call} (next : Result c → Program Call Result Unit) :
    Option (Result c × P) → List (Proc Call Result P)
  | some (result,own) => [⟨some (next result),own⟩]
  | none => []

/-- A turn of a process that is there: the process afterwards, those it has created, and the
shared part. -/
def turn (choice : Choice) (p : Proc Call Result P) (shared : S) :
    Proc Call Result P × List (Proc Call Result P) × S :=
  match p.code with
  | none => (p,[],shared)
  | some (.done _) => (⟨some (k.again p.own),p.own⟩,[],shared)
  | some (.call c next) =>
    let (reply,shared) := k.act c choice p.own shared
    (k.answered c next p.own reply,created next (k.copy c choice p.own),shared)

def interrupt (signal : Signal) (p : Proc Call Result P) : Proc Call Result P :=
  match p.code with
  | none => p
  | some code => ⟨some code,k.handle signal p.own⟩

def step (s : Procs Call Result P S) : Dispatch Choice Signal → Procs Call Result P S
  | .proceed place choice =>
    match s.all[place]? with
    | none => s
    | some p =>
      let (after,new,shared) := k.turn choice p s.shared
      ⟨s.all.set place after ++ new,shared⟩
  | .signal place signal =>
    match s.all[place]? with
    | none => s
    | some p => {s with all := s.all.set place (k.interrupt signal p)}
  | .kill place =>
    match s.all[place]? with
    | none => s
    | some p => {s with all := s.all.set place ⟨none,k.leave p.own⟩}

/-- Every answer that a call can have, in the process that makes it or in its copy. -/
def Answers (c : Call) (p : P) (result : Result c) (after : P) : Prop :=
  (∃ choice shared, (k.act c choice p shared).1 = .answers (result,after)) ∨
    ∃ choice, k.copy c choice p = some (result,after)

/-- What signals can make of a process while it is at one call. -/
def Signalled : P → P → Prop := ReflTransGen fun p q => ∃ signal, q = k.handle signal p

/-- Every call of the program is due where it is made, and the program ends in `post`,
whatever signals there are in between. -/
def Owes (due : Call → P → Prop) (post : α → P → Prop) : Program Call Result α → P → Prop
  | .done value,p => ∀ q, k.Signalled p q → post value q
  | .call c next,p => ∀ q, k.Signalled p q → due c q ∧ ∀ result after, k.Answers c q result after →
      Owes due post (next result) after

def Stable (assertion : P → Prop) : Prop := ∀ signal p, assertion p → assertion (k.handle signal p)

variable {k} {due : Call → P → Prop}

theorem Stable.later {assertion : P → Prop} (stable : k.Stable assertion) {p q : P} (now : assertion p)
    (signalled : k.Signalled p q) : assertion q := by
  induction signalled with
  | refl => exact now
  | tail _ last ih =>
    obtain ⟨signal,rfl⟩ := last
    exact stable signal _ ih

theorem Stable.and {first second : P → Prop} (left : k.Stable first) (right : k.Stable second) :
    k.Stable fun p => first p ∧ second p :=
  fun signal p now => ⟨left signal p now.1,right signal p now.2⟩

theorem Owes.signalled {post : α → P → Prop} {program : Program Call Result α} {p q : P}
    (owes : k.Owes due post program p) (signalled : k.Signalled p q) : k.Owes due post program q := by
  cases program with
  | done value => exact fun r further => owes r (signalled.trans further)
  | call c next => exact fun r further => owes r (signalled.trans further)

theorem Owes.done {post : α → P → Prop} {value : α} (stable : k.Stable (post value)) {p : P}
    (now : post value p) : k.Owes due post (.done value) p := fun _ => stable.later now

theorem Owes.bind {mid : α → P → Prop} {post : β → P → Prop} {first : Program Call Result α}
    {second : α → Program Call Result β} {p : P} (owes : k.Owes due mid first p)
    (rest : ∀ value after, mid value after → k.Owes due post (second value) after) :
    k.Owes due post (first >>= second) p := by
  induction first generalizing p with
  | done value => exact rest value p (owes p .refl)
  | call c next ih =>
    intro q signalled
    obtain ⟨now,later⟩ := owes q signalled
    exact ⟨now,fun result after answers => ih result (later result after answers)⟩

theorem Owes.mono {post weaker : α → P → Prop} {program : Program Call Result α} {p : P}
    (owes : k.Owes due post program p) (enough : ∀ value after, post value after → weaker value after) :
    k.Owes due weaker program p := by
  induction program generalizing p with
  | done value => exact fun q signalled => enough value q (owes q signalled)
  | call c next ih =>
    intro q signalled
    obtain ⟨now,later⟩ := owes q signalled
    exact ⟨now,fun result after answers => ih result (later result after answers)⟩

theorem Owes.and {first second : α → P → Prop} {program : Program Call Result α} {p : P}
    (left : k.Owes due first program p) (right : k.Owes due second program p) :
    k.Owes due (fun value after => first value after ∧ second value after) program p := by
  induction program generalizing p with
  | done value => exact fun q signalled => ⟨left q signalled,right q signalled⟩
  | call c next ih =>
    intro q signalled
    obtain ⟨now,later⟩ := left q signalled
    exact ⟨now,fun result after answers => ih result (later result after answers)
      ((right q signalled).2 result after answers)⟩

/-- The rule for a call: what is asserted of the process in front of it outlasts signals. -/
theorem Owes.call {assertion : P → Prop} {c : Call} {second : Result c → Program Call Result α}
    {post : α → P → Prop} {p : P} (stable : k.Stable assertion) (now : assertion p)
    (ready : ∀ q, assertion q → due c q)
    (rest : ∀ q result after, assertion q → k.Answers c q result after →
      k.Owes due post (second result) after) : k.Owes due post (Program.invoke c >>= second) p :=
  fun q signalled => ⟨ready q (stable.later now signalled),
    fun result after => rest q result after (stable.later now signalled)⟩

/-- The rule for programs whose calls all keep what they are due under. -/
theorem Owes.frame {kept : P → Prop} {allowed : Call → Prop} {program : Program Call Result α} {p : P}
    (stable : k.Stable kept) (now : kept p) (only : program.Only allowed)
    (enough : ∀ c p, allowed c → kept p → due c p)
    (acts : ∀ c p result after, allowed c → kept p → k.Answers c p result after → kept after) :
    k.Owes due (fun _ => kept) program p := by
  induction program generalizing p with
  | done value => exact .done stable now
  | call c next ih =>
    intro q signalled
    have kept := stable.later now signalled
    refine ⟨enough c q only.1 kept,?_⟩
    intro result after answers
    exact ih result (acts c q result after only.1 kept answers) (only.2 result)

section
variable (deaf : ∀ signal p, k.handle signal p = p)
include deaf

/-- Without signals everything is stable. -/
theorem deaf_stable (assertion : P → Prop) : k.Stable assertion :=
  fun signal p now => (deaf signal p).symm ▸ now

theorem Owes.call_deaf {c : Call} {second : Result c → Program Call Result α} {post : α → P → Prop}
    {p : P} (now : due c p) (rest : ∀ result after, k.Answers c p result after →
      k.Owes due post (second result) after) : k.Owes due post (Program.invoke c >>= second) p := by
  refine Owes.call (deaf_stable deaf (· = p)) rfl ?_ ?_
  · intro q same
    exact same ▸ now
  · intro q result after same answers
    exact rest result after (same ▸ answers)

end

section
variable {each : Proc Call Result P → Prop}
  (turns : ∀ p choice (shared : S), each p → each (k.turn choice p shared).1 ∧
    ∀ q ∈ (k.turn choice p shared).2.1, each q)
  (signals : ∀ p signal, each p → each (k.interrupt signal p))
  (kills : ∀ p, each p → each ⟨none,k.leave p.own⟩)
include turns signals kills

theorem step_each {s : Procs Call Result P S} (turn : Dispatch Choice Signal) (all : ∀ p ∈ s.all, each p) :
    ∀ p ∈ (k.step s turn).all, each p := by
  have replaced {place : Nat} {after : Proc Call Result P} (now : each after) :
      ∀ q ∈ s.all.set place after, each q := by
    intro q member
    obtain before | rfl := List.mem_or_eq_of_mem_set member
    · exact all q before
    · exact now
  cases turn with
  | proceed place choice =>
    cases found : s.all[place]? with
    | none => simpa only [step,found] using all
    | some p =>
      obtain ⟨after,new⟩ := turns p choice s.shared (all p (List.mem_of_getElem? found))
      simp only [step,found]
      exact List.forall_mem_append.mpr ⟨replaced after,new⟩
  | signal place signal =>
    cases found : s.all[place]? with
    | none => simpa only [step,found] using all
    | some p =>
      simp only [step,found]
      exact replaced (signals p signal (all p (List.mem_of_getElem? found)))
  | kill place =>
    cases found : s.all[place]? with
    | none => simpa only [step,found] using all
    | some p =>
      simp only [step,found]
      exact replaced (kills p (all p (List.mem_of_getElem? found)))

/-- The rule for what is known of every process by itself. -/
theorem run_each {s : Procs Call Result P S} (all : ∀ p ∈ s.all, each p) (order : List (Dispatch Choice Signal)) :
    ∀ p ∈ (run k.step s order).all, each p :=
  invariant_run (fun s : Procs Call Result P S => ∀ p ∈ s.all, each p)
    (fun _ turn now => step_each turns signals kills turn now) all order

end

/-- What is known of a process between two turns. -/
def Upholds (k : Kernel Call Result P S Choice Signal) (due : Call → P → Prop) (home gone : P → Prop)
    (p : Proc Call Result P) : Prop :=
  match p.code with
  | none => gone p.own
  | some code => k.Owes due (fun _ => home) code p.own

section
variable {home gone : P → Prop} {p : Proc Call Result P}

theorem Upholds.called {c : Call} {next : Result c → Program Call Result Unit}
    (upholds : k.Upholds due home gone p) (code : p.code = some (.call c next)) : due c p.own := by
  simp only [Upholds,code] at upholds
  exact (upholds p.own .refl).1

/-- What holds at every call and between two rounds holds of a process that has not ended. -/
theorem Upholds.alive {always : P → Prop} (upholds : k.Upholds due home gone p) (alive : p.code ≠ none)
    (called : ∀ c p, due c p → always p) (settled : ∀ p, home p → always p) : always p.own := by
  obtain ⟨code,own⟩ := p
  cases code with
  | none => contradiction
  | some code =>
    cases code with
    | done value => exact settled own (upholds own .refl)
    | call c next => exact called c own (upholds own .refl).1

theorem interrupt_upholds (signal : Signal) (upholds : k.Upholds due home gone p) :
    k.Upholds due home gone (k.interrupt signal p) := by
  obtain ⟨code,own⟩ := p
  cases code with
  | none => exact upholds
  | some code => exact Owes.signalled upholds (.single ⟨signal,rfl⟩)

variable (round : ∀ p, home p → k.Owes due (fun _ => home) (k.again p) p)
  (ended : ∀ p, gone (k.leave p))
include round ended

theorem turn_upholds (choice : Choice) (shared : S) (upholds : k.Upholds due home gone p) :
    k.Upholds due home gone (k.turn choice p shared).1 ∧
      ∀ q ∈ (k.turn choice p shared).2.1, k.Upholds due home gone q := by
  obtain ⟨code,own⟩ := p
  cases code with
  | none => exact ⟨upholds,List.forall_mem_nil _⟩
  | some code =>
    cases code with
    | done value => exact ⟨round own (upholds own .refl),List.forall_mem_nil _⟩
    | call c next =>
      obtain ⟨_,later⟩ := upholds own .refl
      constructor
      · change k.Upholds due home gone (k.answered c next own (k.act c choice own shared).1)
        cases reply : (k.act c choice own shared).1 with
        | answers answer => exact later answer.1 answer.2 (Or.inl ⟨choice,shared,reply⟩)
        | waits => exact upholds
        | ends => exact ended own
      · change ∀ q ∈ created next (k.copy c choice own), _
        cases copied : k.copy c choice own with
        | none => exact List.forall_mem_nil _
        | some answer =>
          exact List.forall_mem_singleton.mpr (later answer.1 answer.2 (Or.inr ⟨choice,copied⟩))

theorem step_upholds {s : Procs Call Result P S} (turn : Dispatch Choice Signal)
    (all : ∀ p ∈ s.all, k.Upholds due home gone p) :
    ∀ p ∈ (k.step s turn).all, k.Upholds due home gone p :=
  step_each (fun _ choice shared now => turn_upholds round ended choice shared now)
    (fun _ signal now => interrupt_upholds signal now) (fun p _ => ended p.own) turn all

/-- The rule for what a program owes: it holds of every process in every order of turns. -/
theorem run_upholds {s : Procs Call Result P S} (all : ∀ p ∈ s.all, k.Upholds due home gone p)
    (turns : List (Dispatch Choice Signal)) : ∀ p ∈ (run k.step s turns).all, k.Upholds due home gone p :=
  invariant_run (fun s : Procs Call Result P S => ∀ p ∈ s.all, k.Upholds due home gone p)
    (fun _ turn now => step_upholds round ended turn now) all turns

end

/-- What no answer, signal or end takes from a process it has in the whole run. -/
theorem run_always {always : P → Prop} (stable : k.Stable always)
    (acts : ∀ c p result after, always p → k.Answers c p result after → always after)
    (leaves : ∀ p, always p → always (k.leave p)) {s : Procs Call Result P S}
    (all : ∀ p ∈ s.all, always p.own) (turns : List (Dispatch Choice Signal)) :
    ∀ p ∈ (run k.step s turns).all, always p.own := by
  refine @run_each _ _ _ _ _ _ k (fun p => always p.own) ?_ ?_ (fun p now => leaves p.own now) s all turns
  · intro p choice shared now
    obtain ⟨code,own⟩ := p
    cases code with
    | none => exact ⟨now,List.forall_mem_nil _⟩
    | some code =>
      cases code with
      | done value => exact ⟨now,List.forall_mem_nil _⟩
      | call c next =>
        constructor
        · change always (k.answered c next own (k.act c choice own shared).1).own
          cases reply : (k.act c choice own shared).1 with
          | answers answer => exact acts c own answer.1 answer.2 now (Or.inl ⟨choice,shared,reply⟩)
          | waits => exact now
          | ends => exact leaves own now
        · change ∀ q ∈ created next (k.copy c choice own), always q.own
          cases copied : k.copy c choice own with
          | none => exact List.forall_mem_nil _
          | some answer =>
            exact List.forall_mem_singleton.mpr
              (acts c own answer.1 answer.2 now (Or.inr ⟨choice,copied⟩))
  · intro p signal now
    obtain ⟨code,own⟩ := p
    cases code with
    | none => exact now
    | some code => exact stable signal own now

theorem set_perm {l : List α} {place : Nat} {p : α} (found : l[place]? = some p) (q : α) :
    ∃ others, l.Perm (p::others) ∧ (l.set place q).Perm (q::others) := by
  obtain ⟨inside,rfl⟩ := List.getElem?_eq_some_iff.mp found
  refine ⟨l.eraseIdx place,(List.getElem_cons_eraseIdx_perm inside).symm,?_⟩
  exact List.set_perm_cons_eraseIdx inside q

/-- What one turn does: one process takes it, is interrupted or is killed, and the others
stay as they are. -/
theorem step_cases (s : Procs Call Result P S) (turn : Dispatch Choice Signal) :
    k.step s turn = s ∨ ∃ p others, s.all.Perm (p::others) ∧
      ((k.step s turn).shared = s.shared ∧ (k.step s turn).all.Perm (⟨none,k.leave p.own⟩::others) ∨
        (∃ signal, (k.step s turn).shared = s.shared ∧
          (k.step s turn).all.Perm (k.interrupt signal p::others)) ∨
        ∃ choice, (k.step s turn).shared = (k.turn choice p s.shared).2.2 ∧
          (k.step s turn).all.Perm
            ((k.turn choice p s.shared).1::others ++ (k.turn choice p s.shared).2.1)) := by
  cases turn with
  | proceed place choice =>
    cases found : s.all[place]? with
    | none => exact Or.inl (by simp only [step,found])
    | some p =>
      obtain ⟨others,before,after⟩ := set_perm found (k.turn choice p s.shared).1
      refine Or.inr ⟨p,others,before,Or.inr (Or.inr ⟨choice,?_,?_⟩)⟩
      · simp only [step,found]
      · simpa only [step,found] using after.append_right _
  | signal place signal =>
    cases found : s.all[place]? with
    | none => exact Or.inl (by simp only [step,found])
    | some p =>
      obtain ⟨others,before,after⟩ := set_perm found (k.interrupt signal p)
      refine Or.inr ⟨p,others,before,Or.inr (Or.inl ⟨signal,?_,?_⟩)⟩
      · simp only [step,found]
      · simpa only [step,found] using after
  | kill place =>
    cases found : s.all[place]? with
    | none => exact Or.inl (by simp only [step,found])
    | some p =>
      obtain ⟨others,before,after⟩ := set_perm found ⟨none,k.leave p.own⟩
      refine Or.inr ⟨p,others,before,Or.inl ⟨?_,?_⟩⟩
      · simp only [step,found]
      · simpa only [step,found] using after

end Kernel
end SerialIp.Library
