import Mathlib.Logic.Relation

/-! Programs that reach their world only through calls, and triples for a program
whose calls take turns with those of others: an assertion between two calls is
stable under what the others may do, and a call only does what the others rely on. -/
namespace SerialIp.Library
open Relation

inductive Program (Call : Type) (Result : Call → Type) (α : Type) where
  | done (value : α)
  | call (c : Call) (next : Result c → Program Call Result α)

namespace Program
variable {Call : Type} {Result : Call → Type} {α β W : Type}

def bind (first : Program Call Result α) (second : α → Program Call Result β) :
    Program Call Result β :=
  match first with
  | done value => second value
  | call c next => call c fun result => (next result).bind second

instance : Monad (Program Call Result) where
  pure := done
  bind := bind

def invoke (c : Call) : Program Call Result (Result c) := call c done

def Only (allowed : Call → Prop) : Program Call Result α → Prop
  | done _ => True
  | call c next => allowed c ∧ ∀ result, (next result).Only allowed

theorem Only.bind {allowed : Call → Prop} {first : Program Call Result α}
    {second : α → Program Call Result β} (only : first.Only allowed)
    (rest : ∀ value, (second value).Only allowed) : (first >>= second).Only allowed := by
  induction first with
  | done value => exact rest value
  | call c next ih => exact ⟨only.1,fun result => ih result (only.2 result)⟩

theorem Only.invoke {allowed : Call → Prop} {c : Call} (permitted : allowed c) :
    (Program.invoke c : Program Call Result (Result c)).Only allowed :=
  ⟨permitted,fun _ => trivial⟩

/-- How the calls act on the world, what the others may do between two calls, and
what the calls of this program may do in turn. -/
structure Contract (Call : Type) (Result : Call → Type) (W : Type) where
  act : (c : Call) → W → Result c → W → Prop
  rely : W → W → Prop
  guarantee : W → W → Prop

/-- From here on the program keeps its guarantee and ends in `post`, whatever the
others do in between. -/
def Meets (k : Contract Call Result W) (post : α → W → Prop) : Program Call Result α → W → Prop
  | done value,w => ∀ later, ReflTransGen k.rely w later → post value later
  | call c next,w => ∀ later, ReflTransGen k.rely w later → ∀ result after,
      k.act c later result after → k.guarantee later after ∧ (next result).Meets k post after

def Stable (k : Contract Call Result W) (assertion : W → Prop) : Prop :=
  ∀ w later, assertion w → k.rely w later → assertion later

def Triple (k : Contract Call Result W) (pre : W → Prop) (program : Program Call Result α)
    (post : α → W → Prop) : Prop :=
  ∀ w, pre w → program.Meets k post w

section
variable {k : Contract Call Result W} {post : α → W → Prop}

theorem Meets.interfered {program : Program Call Result α} {w later : W}
    (meets : program.Meets k post w) (between : k.rely w later) : program.Meets k post later := by
  cases program with
  | done value => exact fun last steps => meets last (.head between steps)
  | call c next => exact fun last steps => meets last (.head between steps)

theorem Meets.result {value : α} {w : W} (meets : (done value : Program Call Result α).Meets k post w) :
    post value w := meets w .refl

theorem Meets.proceed {c : Call} {next : Result c → Program Call Result α} {w after : W}
    {result : Result c} (meets : (call c next).Meets k post w) (acts : k.act c w result after) :
    k.guarantee w after ∧ (next result).Meets k post after := meets w .refl result after acts

theorem Stable.later {assertion : W → Prop} (stable : Stable k assertion) {w later : W}
    (now : assertion w) (steps : ReflTransGen k.rely w later) : assertion later := by
  induction steps with
  | refl => exact now
  | tail _ last ih => exact stable _ _ ih last

theorem Triple.done (stable : ∀ value, Stable k (post value)) (value : α) :
    Triple k (post value) (.done value) post :=
  fun _ now _ steps => (stable value).later now steps

theorem Triple.call {pre : W → Prop} {c : Call} {next : Result c → Program Call Result α}
    (mid : Result c → W → Prop) (stable : Stable k pre)
    (acts : ∀ w result after, pre w → k.act c w result after →
      k.guarantee w after ∧ mid result after)
    (rest : ∀ result, Triple k (mid result) (next result) post) :
    Triple k pre (.call c next) post := by
  intro w now later steps result after act
  obtain ⟨allowed,reached⟩ := acts later result after (stable.later now steps) act
  exact ⟨allowed,rest result after reached⟩

theorem Triple.invoke {pre : W → Prop} {c : Call} {mid : Result c → W → Prop} (stable : Stable k pre)
    (stays : ∀ result, Stable k (mid result))
    (acts : ∀ w result after, pre w → k.act c w result after →
      k.guarantee w after ∧ mid result after) : Triple k pre (invoke c) mid :=
  .call mid stable acts (.done stays)

theorem Meets.bind {post' : β → W → Prop} {program : Program Call Result α}
    {second : α → Program Call Result β} {w : W} (meets : program.Meets k post w)
    (rest : ∀ value, Triple k (post value) (second value) post') :
    (program.bind second).Meets k post' w := by
  induction program generalizing w with
  | done value => exact rest value w meets.result
  | call c next ih =>
    intro later steps result after act
    obtain ⟨allowed,onward⟩ := meets later steps result after act
    exact ⟨allowed,ih result onward⟩

theorem Triple.bind {pre : W → Prop} {post' : β → W → Prop} {program : Program Call Result α}
    {second : α → Program Call Result β} (first : Triple k pre program post)
    (rest : ∀ value, Triple k (post value) (second value) post') :
    Triple k pre (program >>= second) post' :=
  fun w now => (first w now).bind rest

theorem Triple.frame {kept : W → Prop} {allowed : Call → Prop} (stable : Stable k kept)
    (acts : ∀ c, allowed c → ∀ w result after, kept w → k.act c w result after →
      k.guarantee w after ∧ kept after)
    {program : Program Call Result α} (only : program.Only allowed) :
    Triple k kept program fun _ => kept := by
  induction program with
  | done value => exact .done (fun _ => stable) value
  | call c next ih =>
    exact .call (fun _ => kept) stable (acts c only.1) fun result => ih result (only.2 result)

theorem Triple.weaken {pre pre' : W → Prop} {program : Program Call Result α}
    (triple : Triple k pre program post) (enough : ∀ w, pre' w → pre w) :
    Triple k pre' program post :=
  fun w now => triple w (enough w now)

end

/-- A call together with its answer. -/
abbrev Exchange (Call : Type) (Result : Call → Type) := (c : Call) × Result c

/-- The program runs alone from `w`, with these exchanges, and ends with `value` in `after`. -/
def Runs (act : (c : Call) → W → Result c → W → Prop) :
    Program Call Result α → List (Exchange Call Result) → W → α → W → Prop
  | done result,trace,w,value,after => trace = [] ∧ value = result ∧ after = w
  | call c next,trace,w,value,after => ∃ result rest mid, trace = ⟨c,result⟩::rest ∧
      act c w result mid ∧ (next result).Runs act rest mid value after

/-- The program alone on a world where each call has one answer. -/
def execute (act : (c : Call) → W → Result c × W) : Program Call Result α → W → α × W
  | done value,w => (value,w)
  | call c next,w =>
    let (result,after) := act c w
    (next result).execute act after

section
variable {act : (c : Call) → W → Result c × W} {w after : W}

theorem execute_bind {first : Program Call Result α} {second : α → Program Call Result β} {value : α}
    (begins : first.execute act w = (value,after)) :
    (first >>= second).execute act w = (second value).execute act after := by
  change (first.bind second).execute act w = _
  induction first generalizing w with
  | done result =>
    obtain ⟨rfl,rfl⟩ := Prod.mk.inj begins
    rfl
  | call c next ih => exact ih _ begins

theorem execute_invoke {c : Call} {second : Result c → Program Call Result β} {result : Result c}
    (answers : act c w = (result,after)) :
    (invoke c >>= second).execute act w = (second result).execute act after := by
  change (let (result,after) := act c w; (second result).execute act after) = _
  rw [answers]

end

/-- The exchanges and the value of a program whose calls get the assigned answers. -/
def eval (answer : (c : Call) → Result c) :
    Program Call Result α → List (Exchange Call Result) × α
  | done value => ([],value)
  | call c next => let (trace,value) := (next (answer c)).eval answer
    (⟨c,answer c⟩::trace,value)

theorem eval_invoke_bind (answer : (c : Call) → Result c) (c : Call)
    (second : Result c → Program Call Result β) :
    (invoke c >>= second).eval answer = (⟨c,answer c⟩::((second (answer c)).eval answer).1,
      ((second (answer c)).eval answer).2) := rfl

/-- Every value that the program can end with, whatever its calls answer. -/
def Ends (post : α → Prop) : Program Call Result α → Prop
  | done value => post value
  | call _ next => ∀ result, (next result).Ends post

theorem Ends.bind {post : β → Prop} {first : Program Call Result α} {second : α → Program Call Result β}
    {mid : α → Prop} (ends : first.Ends mid) (rest : ∀ value, mid value → (second value).Ends post) :
    (first >>= second).Ends post := by
  induction first with
  | done value => exact rest value ends
  | call c next ih => exact fun result => ih result (ends result)

theorem Ends.andThen {post : β → Prop} (first : Program Call Result α)
    {second : α → Program Call Result β} (rest : ∀ value, (second value).Ends post) :
    (first >>= second).Ends post := by
  induction first with
  | done value => exact rest value
  | call c next ih => exact fun result => ih result

section
variable {act : (c : Call) → W → Result c → W → Prop} {trace : List (Exchange Call Result)}
  {w after : W}

theorem runs_invoke {c : Call} {value : Result c} :
    (invoke c : Program Call Result (Result c)).Runs act trace w value after ↔
      trace = [⟨c,value⟩] ∧ act c w value after := by
  constructor
  · intro runs
    obtain ⟨result,rest,mid,rfl,acts,rfl,rfl,rfl⟩ := runs
    exact ⟨rfl,acts⟩
  · intro runs
    obtain ⟨rfl,acts⟩ := runs
    exact ⟨value,[],after,rfl,acts,rfl,rfl,rfl⟩

theorem runs_bind {first : Program Call Result α} {second : α → Program Call Result β} {value : β} :
    (first >>= second).Runs act trace w value after ↔ ∃ early late between mid,
      trace = early ++ late ∧ first.Runs act early w between mid ∧
        (second between).Runs act late mid value after := by
  change (first.bind second).Runs act trace w value after ↔ _
  induction first generalizing trace w with
  | done result =>
    constructor
    · exact fun runs => ⟨[],trace,result,w,rfl,⟨rfl,rfl,rfl⟩,runs⟩
    · intro runs
      obtain ⟨early,late,between,mid,rfl,⟨rfl,rfl,rfl⟩,runs⟩ := runs
      exact runs
  | call c next ih =>
    constructor
    · intro runs
      obtain ⟨result,rest,mid,rfl,acts,onward⟩ := runs
      obtain ⟨early,late,between,last,rfl,left,right⟩ := (ih result).mp onward
      exact ⟨⟨c,result⟩::early,late,between,last,rfl,⟨result,early,mid,rfl,acts,left⟩,right⟩
    · intro runs
      obtain ⟨early,late,between,last,rfl,⟨result,rest,mid,rfl,acts,left⟩,right⟩ := runs
      exact ⟨result,rest ++ late,mid,rfl,acts,(ih result).mpr ⟨rest,late,between,last,rfl,left,right⟩⟩

theorem runs_invoke_bind {c : Call} {second : Result c → Program Call Result β} {value : β} :
    (invoke c >>= second).Runs act trace w value after ↔ ∃ result rest mid,
      trace = ⟨c,result⟩::rest ∧ act c w result mid ∧
        (second result).Runs act rest mid value after := Iff.rfl

theorem Runs.mono {other : (c : Call) → W → Result c → W → Prop} {program : Program Call Result α}
    {value : α} (runs : program.Runs act trace w value after)
    (wider : ∀ c w result after, act c w result after → other c w result after) :
    program.Runs other trace w value after := by
  induction program generalizing trace w with
  | done result => exact runs
  | call c next ih =>
    obtain ⟨result,rest,mid,rfl,acts,onward⟩ := runs
    exact ⟨result,rest,mid,rfl,wider c w result mid acts,ih result onward⟩

theorem Runs.only {allowed : Call → Prop} {program : Program Call Result α} {value : α}
    (runs : program.Runs act trace w value after) (only : program.Only allowed) :
    ∀ exchange ∈ trace, allowed exchange.1 := by
  induction program generalizing trace w with
  | done result =>
    obtain ⟨rfl,_⟩ := runs
    exact fun _ member => absurd member List.not_mem_nil
  | call c next ih =>
    obtain ⟨result,rest,mid,rfl,_,onward⟩ := runs
    exact List.forall_mem_cons.mpr ⟨only.1,ih result onward (only.2 result)⟩

theorem runs_eval (answer : (c : Call) → Result c) (program : Program Call Result α)
    (acts : ∀ c, act c w (answer c) w) :
    program.Runs act (program.eval answer).1 w (program.eval answer).2 w := by
  induction program with
  | done value => exact ⟨rfl,rfl,rfl⟩
  | call c next ih => exact ⟨answer c,_,w,rfl,acts c,ih (answer c)⟩

theorem runs_execute (act : (c : Call) → W → Result c × W) (program : Program Call Result α) (w : W) :
    ∃ trace, program.Runs (fun c w result after => act c w = (result,after)) trace w
      (program.execute act w).1 (program.execute act w).2 := by
  induction program generalizing w with
  | done value => exact ⟨[],rfl,rfl,rfl⟩
  | call c next ih =>
    obtain ⟨trace,runs⟩ := ih (act c w).1 (act c w).2
    exact ⟨⟨c,(act c w).1⟩::trace,_,trace,_,rfl,rfl,runs⟩

/-- The rule for a program of which no call changes the world. -/
theorem Runs.stays {program : Program Call Result α} {value : α}
    (runs : program.Runs act trace w value after)
    (only : program.Only fun c => ∀ w result after, act c w result after → after = w) : after = w := by
  induction program generalizing trace w with
  | done result => exact runs.2.2
  | call c next ih =>
    obtain ⟨result,rest,mid,rfl,acts,onward⟩ := runs
    obtain rfl := only.1 w result mid acts
    exact ih result onward (only.2 result)

theorem Runs.stays_bind {first : Program Call Result α} {second : α → Program Call Result β} {value : β}
    (runs : (first >>= second).Runs act trace w value after)
    (only : first.Only fun c => ∀ w result after, act c w result after → after = w) :
    ∃ between rest, (second between).Runs act rest w value after := by
  obtain ⟨early,late,between,mid,_,begins,onward⟩ := runs_bind.mp runs
  rw [begins.stays only] at onward
  exact ⟨between,late,onward⟩

section
variable {ε : Type} {view : Exchange Call Result → Option ε}

/-- The rule for a program of which an observer of the calls sees nothing. -/
theorem Runs.unseen {program : Program Call Result α} {value : α}
    (runs : program.Runs act trace w value after)
    (only : program.Only fun c => ∀ result, view ⟨c,result⟩ = none) : trace.filterMap view = [] :=
  List.filterMap_eq_nil_iff.mpr fun exchange member => runs.only only exchange member exchange.2

theorem Runs.unseen_bind {first : Program Call Result α} {second : α → Program Call Result β} {value : β}
    (runs : (first >>= second).Runs act trace w value after)
    (only : first.Only fun c => ∀ result, view ⟨c,result⟩ = none) : ∃ between rest mid,
      trace.filterMap view = rest.filterMap view ∧ (second between).Runs act rest mid value after := by
  obtain ⟨early,late,between,mid,rfl,begins,onward⟩ := runs_bind.mp runs
  refine ⟨between,late,mid,?_,onward⟩
  rw [List.filterMap_append,begins.unseen only,List.nil_append]

end

end
end Program
end SerialIp.Library
