import SerialIp.MemoryOwnership

/-! When the processes of the server free no block twice and use none behind its free, over
whole runs of connections and restarts, and how many blocks the listening one loses. -/
namespace SerialIp.Memory
open Library Library.Heap

def unused : List Moment → Bool
  | [] => true
  | .use::_ => false
  | .hangup g::rest => !g.succeeds || unused rest

/-- No use comes behind a SIGHUP that the process survives. -/
def quiet : List Moment → Bool
  | [] => true
  | .use::rest => quiet rest
  | .hangup g::rest => !g.succeeds || unused rest

/-- What comes up from the lock on; the last use gives the port back. -/
def Session.moments (c : Session) : List Moment :=
  c.early ++ .use::(if c.opened then c.late ++ [.use] else [.use])

theorem quiet_plain {ms : List Moment} (plain : ms.all Moment.plain = true) (rest : List Moment) :
    quiet (ms ++ rest) = quiet rest := by
  induction ms with
  | nil => rfl
  | cons m ms ih =>
    rw [List.all_cons,Bool.and_eq_true] at plain
    cases m with
    | use => exact ih plain.2
    | hangup g => exact absurd plain.1 Bool.false_ne_true

theorem unused_use (ms rest : List Moment) : unused (ms ++ .use::rest) = unused (ms ++ [.use]) := by
  induction ms with
  | nil => rfl
  | cons m ms ih =>
    cases m with
    | use => rfl
    | hangup g => exact congrArg (!g.succeeds || ·) ih

theorem quiet_use {ms : List Moment} (other : ms.all Moment.plain = false) (rest : List Moment) :
    quiet (ms ++ .use::rest) = quiet (ms ++ [.use]) := by
  induction ms with
  | nil => exact absurd other Bool.true_eq_false_eq_False
  | cons m ms ih =>
    cases m with
    | use => exact ih other
    | hangup g => exact congrArg (!g.succeeds || ·) (unused_use ms rest)

section
variable {held : Held} {port : PortBlocks} {h : Heap} {rest : Multiset Nat}

theorem blocks_port (member : port ∈ held.ports) :
    ∃ others, held.blocks = {port.info} + (held.leftBehind + others) := by
  obtain ⟨before,behind,split⟩ := List.append_of_mem member
  refine ⟨(freedFields.map fun field => owned (held.text field)).sum + owned port.device + owned port.lockfile +
    ((before ++ behind).map fun port => {port.info} + owned port.device + owned port.lockfile).sum,?_⟩
  have each (port : PortBlocks) : port.blocks =
      owned port.description + ({port.info} + owned port.device + owned port.lockfile) := by
    unfold PortBlocks.blocks
    abel
  simp only [Held.blocks,Held.strings,Held.portBlocks,Held.leftBehind,fields,freedFields,split,funext each,
    List.map_append,List.map_cons,List.map_nil,List.sum_append,List.sum_cons,List.sum_nil,List.sum_map_add]
  abel

theorem carries_use (member : port ∈ held.ports) :
    Carries held.blocks (touch port.info) fun _ left => left = held.blocks := by
  obtain ⟨others,same⟩ := blocks_port member
  rw [same]
  refine ((carries_touch port.info).beside _).mono fun _ left reached => ?_
  obtain ⟨_,rfl,rfl⟩ := reached
  rfl

theorem actionSighup_gone (member : port ∈ held.ports) (has : Consists h (held.blocks + rest)) (g : Restart) :
    Gone port.info (run (actionSighup g held) h).2 := by
  obtain ⟨left,rfl,after⟩ := carries_programCleanUp held h rest has
  obtain ⟨others,same⟩ := blocks_port member
  unfold actionSighup
  rw [run_bind]
  refine run_gone ?_ _
  refine Consists.gone (has.congr (b := {port.info} + (held.leftBehind + rest + others)) ?_) after
    (Multiset.le_add_right ..)
  rw [same]
  abel

/-- What has become of the process and of the port that it serves, where `plain` says that
no SIGHUP came and `calm` that none did harm. -/
inductive Outcome (info : Nat) (held : Held) (kept : Heap → Prop) (plain calm : Bool) : Option Held × Heap → Prop
  | through {h : Heap} (only : plain = true) (fine : calm = true) (now : kept h) :
      Outcome info held kept plain calm (some held,h)
  | ended {h : Heap} (other : plain = false) (fine : calm = true) (sound : h.sound = true) :
      Outcome info held kept plain calm (none,h)
  | stale {result : Option Held} {h : Heap} (other : plain = false) (harm : calm = false) (gone : Gone info h)
      (dead : result = none → h.sound = false) : Outcome info held kept plain calm (result,h)

/-- From where the port is gone the process must end before it is used. -/
theorem moments_gone {info : Nat} (gone : Gone info h) (has : Consists h (held.blocks + rest)) (ms : List Moment) :
    (unused (ms ++ [.use]) = true ∧ (run (moments info ms held) h).1 = none ∧
        (run (moments info ms held) h).2.sound = true) ∨
      unused (ms ++ [.use]) = false ∧
        ((run (moments info ms held) h).1 = none → (run (moments info ms held) h).2.sound = false) := by
  induction ms generalizing held h rest with
  | nil => exact .inr ⟨rfl,nofun⟩
  | cons m ms ih =>
    cases m with
    | use =>
      refine .inr ⟨rfl,fun _ => ?_⟩
      rw [moments,run_bind]
      exact run_unsound (run_touch_gone gone) _
    | hangup g =>
      obtain ⟨left,⟨survives,owns⟩,after⟩ := carries_actionSighup g held h rest has
      have still := run_gone gone (actionSighup g held)
      rw [moments,run_bind]
      generalize run (actionSighup g held) h = restarted at survives owns after still ⊢
      obtain ⟨result,h'⟩ := restarted
      change unused (.hangup g::(ms ++ [.use])) = true ∧ _ ∨ unused (.hangup g::(ms ++ [.use])) = false ∧ _
      rw [unused,← survives]
      cases result with
      | none => exact .inl ⟨rfl,rfl,after.sound⟩
      | some held' =>
        obtain ⟨own,⟨⟨lost,rfl,_⟩,_,_⟩,rfl⟩ := owns held' rfl
        refine ih still (after.congr (b := held'.blocks + (lost + held.leftBehind + rest)) ?_)
        abel

theorem moments_outcome (member : port ∈ held.ports) (has : Consists h (held.blocks + rest)) (ms : List Moment) :
    Outcome port.info held (Consists · (held.blocks + rest)) (ms.all Moment.plain) (quiet (ms ++ [.use]))
      (run (moments port.info ms held) h) := by
  induction ms generalizing h with
  | nil => exact .through rfl rfl has
  | cons m ms ih =>
    cases m with
    | use =>
      obtain ⟨left,rfl,after⟩ := carries_use member h rest has
      rw [moments,run_bind]
      exact ih after
    | hangup g =>
      obtain ⟨left,⟨survives,owns⟩,after⟩ := carries_actionSighup g held h rest has
      have still := actionSighup_gone member has g
      rw [moments,run_bind]
      generalize run (actionSighup g held) h = restarted at survives owns after still ⊢
      obtain ⟨result,h'⟩ := restarted
      change Outcome _ _ _ false (!g.succeeds || unused (ms ++ [.use])) _
      rw [← survives]
      cases result with
      | none => exact .ended rfl rfl after.sound
      | some held' =>
        obtain ⟨own,⟨⟨lost,rfl,_⟩,_,_⟩,rfl⟩ := owns held' rfl
        have next := moments_gone still
          (after.congr (b := held'.blocks + (lost + held.leftBehind + rest)) (by abel)) ms
        have gone := run_gone still (moments port.info ms held')
        dsimp only
        generalize run (moments port.info ms held') h' = later at next gone ⊢
        obtain ⟨result,h''⟩ := later
        obtain ⟨calm,dead,sound⟩ | ⟨harm,dead⟩ := next
        · obtain rfl : result = none := dead
          exact .ended rfl calm sound
        · exact .stale rfl harm gone dead

def BufferBlocks.blocks (buff : BufferBlocks) : Multiset Nat := {buff.info} + {buff.buffp} + {buff.label}

def bufferBlocks (buff : Option BufferBlocks) : Multiset Nat := buff.elim 0 BufferBlocks.blocks

theorem carries_bfmalloc (allocs : List Bool) : Carries 0 (bfmalloc allocs) fun result left =>
    left = bufferBlocks result.1 ∧ (allocs = [] → result.1.isSome = true ∧ result.2 = []) := by
  refine Carries.bind (carries_allocated allocs) fun ⟨info,allocs'⟩ left ⟨blocks,first⟩ => ?_
  subst blocks
  cases info with
  | none => exact .done ⟨rfl,fun met => absurd rfl (allocated_granted met first).1⟩
  | some info =>
    refine Carries.call (carries_allocated allocs') (zero_add _).symm fun ⟨buffp,allocs''⟩ left ⟨blocks,second⟩ => ?_
    subst blocks
    cases buffp with
    | none =>
      refine Carries.call (carries_free info) (add_comm ..) fun _ left none => .done ⟨?_,fun met => ?_⟩
      · rw [none]
        rfl
      · exact absurd rfl (allocated_granted (allocated_granted met first).2 second).1
    | some buffp =>
      refine Carries.call (carries_allocated allocs'') (zero_add _).symm fun ⟨label,_⟩ left ⟨blocks,third⟩ => ?_
      subst blocks
      cases label with
      | none =>
        refine Carries.call (k := {info}) (carries_free buffp) (zero_add _) fun _ left none => ?_
        subst none
        refine Carries.call (carries_free info) (add_comm ..) fun _ left none => .done ⟨?_,fun met => ?_⟩
        · rw [none]
          rfl
        · have known := (allocated_granted (allocated_granted met first).2 second).2
          exact absurd rfl (allocated_granted known third).1
      | some label =>
        refine .done ⟨?_,fun met => ⟨rfl,?_⟩⟩
        · change {label} + ({buffp} + {info}) = ({info} + {buffp} + {label} : Multiset Nat)
          abel
        · have known := (allocated_granted (allocated_granted met first).2 second).2
          exact (allocated_granted known third).2

theorem carries_bffree (buff : Option BufferBlocks) :
    Carries (bufferBlocks buff) (bffree buff) fun _ left => left = 0 := by
  cases buff with
  | none => exact .done rfl
  | some buff =>
    refine Carries.call (carries_free buff.label) (add_comm ..) fun _ left none => ?_
    subst none
    refine Carries.call (k := {buff.info}) (carries_free buff.buffp) (by abel) fun _ left none => ?_
    subst none
    exact zero_add ({buff.info} : Multiset Nat) ▸ carries_free buff.info

/-- What a session leaves of its buffers. -/
def Spilt (raw : Bool) (allocs : List Bool) (lost : Multiset Nat) : Prop :=
  allocs = [] → lost.card = if raw then 9 else 0

theorem carries_freeBuffers (raw : Bool) (network serial sabre : Option BufferBlocks) :
    Carries (bufferBlocks network + bufferBlocks serial + bufferBlocks sabre)
      (freeBuffers raw network serial sabre) fun _ left =>
        network.isSome → serial.isSome → sabre.isSome → left.card = if raw then 9 else 0 := by
  unfold freeBuffers
  split
  · rename_i kept
    refine .done fun first second third => ?_
    obtain ⟨network,rfl⟩ := Option.isSome_iff_exists.mp first
    obtain ⟨serial,rfl⟩ := Option.isSome_iff_exists.mp second
    obtain ⟨sabre,rfl⟩ := Option.isSome_iff_exists.mp third
    simp_all [bufferBlocks,BufferBlocks.blocks]
  · rename_i freed
    refine Carries.call (k := bufferBlocks serial + bufferBlocks sabre) (carries_bffree network) (add_assoc ..)
      fun _ left none => ?_
    subst none
    refine Carries.call (k := bufferBlocks sabre) (carries_bffree serial) (zero_add _) fun _ left none => ?_
    subst none
    rw [zero_add]
    refine (carries_bffree sabre).mono fun _ left none first second third => ?_
    simp_all

theorem communication_outcome (raw : Bool) (allocs : List Bool) (member : port ∈ held.ports)
    (has : Consists h (held.blocks + rest)) (late : List Moment) :
    Outcome port.info held (fun h => ∃ lost, Consists h (held.blocks + (lost + rest)) ∧ Spilt raw allocs lost)
      (late.all Moment.plain) (quiet (late ++ [.use]))
      (run (serialIpCommunicationProcess raw port.info late allocs held) h) := by
  obtain ⟨left,⟨rfl,first⟩,has⟩ := carries_bfmalloc allocs h _ (has.congr (zero_add _).symm)
  unfold serialIpCommunicationProcess
  rw [run_bind]
  generalize run (bfmalloc allocs) h = made at first has ⊢
  obtain ⟨⟨network,allocs'⟩,h⟩ := made
  obtain ⟨left,⟨rfl,second⟩,has⟩ := carries_bfmalloc allocs' h _ (has.congr (zero_add _).symm)
  dsimp only
  rw [run_bind]
  generalize run (bfmalloc allocs') h = made at second has ⊢
  obtain ⟨⟨serial,allocs''⟩,h⟩ := made
  obtain ⟨left,⟨rfl,third⟩,has⟩ := carries_bfmalloc allocs'' h _ (has.congr (zero_add _).symm)
  dsimp only
  rw [run_bind]
  generalize run (bfmalloc allocs'') h = made at third has ⊢
  obtain ⟨⟨sabre,_⟩,h⟩ := made
  have outcome := moments_outcome member (has.congr
    (b := held.blocks + (bufferBlocks network + bufferBlocks serial + bufferBlocks sabre + rest)) (by abel)) late
  dsimp only
  rw [run_bind]
  generalize run (moments port.info late held) h = served at outcome ⊢
  cases outcome with
  | ended other fine sound => exact .ended other fine sound
  | @stale result h other harm gone dead =>
    cases result with
    | none => exact .stale other harm gone dead
    | some held' =>
      dsimp only
      rw [run_bind]
      exact .stale other harm (run_gone gone _) nofun
  | @through h only fine now =>
    obtain ⟨lost,spilt,after⟩ := carries_freeBuffers raw network serial sabre h (held.blocks + rest)
      (now.congr (by abel))
    dsimp only
    rw [run_bind]
    refine .through only fine ⟨lost,after.congr (add_left_comm ..),fun met => ?_⟩
    exact spilt (first met).1 (second (first met).2).1 (third (second (first met).2).2).1

theorem blocks_locked {text : StringField → Pointer} {ports : List PortBlocks} {concurrent : Bool} (free : port.lockfile = none)
    (lockfile : Pointer) : (⟨text,{port with lockfile := lockfile}::ports,concurrent⟩ : Held).blocks =
      owned lockfile + (⟨text,port::ports,concurrent⟩ : Held).blocks := by
  simp only [Held.blocks,Held.strings,Held.portBlocks,List.map_cons,List.sum_cons,PortBlocks.blocks,free,owned_none]
  abel

theorem carries_releaseSerialPort {text : StringField → Pointer} {ports : List PortBlocks} {concurrent : Bool}
    (unlocked : (⟨text,port::ports,concurrent⟩ : Held).Unlocked) (lockfile : Pointer) :
    Carries (⟨text,{port with lockfile := lockfile}::ports,concurrent⟩ : Held).blocks
      (releaseSerialPort port.info ⟨text,{port with lockfile := lockfile}::ports,concurrent⟩) fun after left =>
        after = ⟨text,port::ports,concurrent⟩ ∧ left = after.blocks := by
  obtain ⟨free,others⟩ := List.forall_mem_cons.mp unlocked
  have first : {port with lockfile := lockfile} ∈
    (⟨text,{port with lockfile := lockfile}::ports,concurrent⟩ : Held).ports := List.mem_cons_self ..
  refine (carries_use first).bind fun _ left same => ?_
  subst same
  rw [blocks_locked free,List.find?_cons_of_pos (by simp)]
  refine Carries.call (carries_release lockfile) rfl fun _ left freed => .done ?_
  have restored : (⟨text,({port with lockfile := lockfile}::ports).map fun other =>
      if other.info = port.info then {other with lockfile := none} else other,concurrent⟩ : Held) =
        ⟨text,port::ports,concurrent⟩ := by
    refine congrArg (Held.mk text · concurrent) (List.cons_eq_cons.mpr ⟨?_,?_⟩)
    · dsimp only
      rw [if_pos rfl,← free]
    · refine (List.map_congr_left fun other member => ?_).trans (List.map_id _)
      split
      · rw [← others other member]
        rfl
      · rfl
  rw [restored,freed]
  exact ⟨rfl,zero_add _⟩

/-- The session gets a port. -/
def Session.serves (c : Session) (held : Held) : Bool := !held.ports.isEmpty && c.locked

/-- What a connection takes from a process that it does not harm. -/
structure Served (spills : Bool) (allocs : List Bool) (held : Held) (rest : Multiset Nat)
    (after : Option Held × Heap) : Prop where
  sound : after.2.sound = true
  holds : ∀ now ∈ after.1, now = held ∧ ∃ lost, Consists after.2 (held.blocks + (lost + rest)) ∧
    Spilt spills allocs lost

theorem Served.idle {allocs : List Bool} (has : Consists h (held.blocks + rest)) :
    Served false allocs held rest (some held,h) := by
  refine ⟨has.sound,fun now kept => ?_⟩
  obtain rfl := Option.mem_some_iff.mp kept
  exact ⟨rfl,0,has.congr (by rw [zero_add]),fun _ => rfl⟩

theorem releaseSerialPort_served {text : StringField → Pointer} {ports : List PortBlocks}
    {concurrent spills : Bool} {allocs : List Bool} {lost : Multiset Nat} {lockfile : Pointer}
    (unlocked : (⟨text,port::ports,concurrent⟩ : Held).Unlocked) (spilt : Spilt spills allocs lost)
    (has : Consists h ((⟨text,{port with lockfile := lockfile}::ports,concurrent⟩ : Held).blocks + (lost + rest))) :
    Served spills allocs ⟨text,port::ports,concurrent⟩ rest
      (run (releaseSerialPort port.info ⟨text,{port with lockfile := lockfile}::ports,concurrent⟩ >>= fun held =>
        pure (some held)) h) := by
  obtain ⟨left,⟨same,rfl⟩,after⟩ := carries_releaseSerialPort unlocked lockfile h _ has
  rw [run_bind,same]
  rw [same] at after
  refine ⟨after.sound,fun now kept => ?_⟩
  obtain rfl := Option.mem_some_iff.mp kept
  exact ⟨rfl,lost,after,spilt⟩

theorem releaseSerialPort_unsound {α : Type} {info : Nat} (gone : Gone info h) (next : Held → Allocating α) :
    (run (releaseSerialPort info held >>= next) h).2.sound = false := by
  rw [run_bind]
  refine run_unsound ?_ _
  rw [releaseSerialPort,run_bind]
  exact run_unsound (run_touch_gone gone) _

/-- The connection that gets a port, one outcome after the other. -/
theorem locked_cases {text : StringField → Pointer} {ports : List PortBlocks} {concurrent : Bool} (raw : Bool)
    {c : Session} (locked : c.locked = true) (has : Consists h ((⟨text,port::ports,concurrent⟩ : Held).blocks + rest))
    (unlocked : (⟨text,port::ports,concurrent⟩ : Held).Unlocked) :
    quiet c.moments = true ∧ Served (raw && c.opened) c.allocs ⟨text,port::ports,concurrent⟩ rest
        (run (parentAcceptSocketConnection raw c ⟨text,port::ports,concurrent⟩) h) ∨
      quiet c.moments = false ∧
        (run (parentAcceptSocketConnection raw c ⟨text,port::ports,concurrent⟩) h).2.sound = false := by
  obtain ⟨left,⟨rfl,answer⟩,has⟩ := carries_allocated c.allocs h _ (has.congr (zero_add _).symm)
  unfold parentAcceptSocketConnection
  dsimp only
  rw [if_pos locked,run_bind]
  generalize run (allocated c.allocs) h = result at answer has ⊢
  obtain ⟨⟨lockfile,allocs⟩,h⟩ := result
  dsimp only at has
  rw [← add_assoc,← blocks_locked (unlocked port (List.mem_cons_self ..))] at has
  have first : {port with lockfile := lockfile} ∈
    (⟨text,{port with lockfile := lockfile}::ports,concurrent⟩ : Held).ports := List.mem_cons_self ..
  have outcome := moments_outcome first has c.early
  dsimp only at outcome ⊢
  rw [run_bind]
  generalize run (moments port.info c.early ⟨text,{port with lockfile := lockfile}::ports,concurrent⟩) h = served
    at outcome ⊢
  unfold Session.moments
  cases outcome with
  | ended other fine sound =>
    rw [quiet_use other]
    exact .inl ⟨fine,sound,nofun⟩
  | @stale result h other harm gone dead =>
    rw [quiet_use other]
    refine .inr ⟨harm,?_⟩
    cases result with
    | none => exact dead rfl
    | some held =>
      dsimp only
      rw [run_bind]
      exact run_unsound (run_touch_gone gone) _
  | @through h only fine now =>
    obtain ⟨left,rfl,has⟩ := carries_use first h rest now
    rw [quiet_plain only,quiet]
    dsimp only at has ⊢
    rw [run_bind]
    generalize run (touch port.info) h = touched at has ⊢
    obtain ⟨_,h⟩ := touched
    cases opened : c.opened with
    | false =>
      refine .inl ⟨rfl,?_⟩
      rw [Bool.and_false]
      have nothing : Spilt false c.allocs 0 := fun _ => rfl
      exact releaseSerialPort_served unlocked nothing (has.congr (by rw [zero_add]))
    | true =>
      have outcome := communication_outcome raw allocs first has c.late
      dsimp only at outcome ⊢
      rw [if_pos rfl,if_pos rfl,run_bind,Bool.and_true]
      generalize run (serialIpCommunicationProcess raw port.info c.late allocs
        ⟨text,{port with lockfile := lockfile}::ports,concurrent⟩) h = served at outcome ⊢
      cases outcome with
      | ended other fine sound => exact .inl ⟨fine,sound,nofun⟩
      | @stale result h other harm gone dead =>
        refine .inr ⟨harm,?_⟩
        cases result with
        | none => exact dead rfl
        | some held => exact releaseSerialPort_unsound gone _
      | @through h only fine now =>
        obtain ⟨lost,has,spilt⟩ := now
        refine .inl ⟨fine,releaseSerialPort_served unlocked (fun met => spilt ?_) has⟩
        exact answer.2.trans (by rw [met]; rfl)

theorem parentAcceptSocketConnection_cases (raw : Bool) (c : Session) (has : Consists h (held.blocks + rest))
    (unlocked : held.Unlocked) :
    (c.serves held = true → quiet c.moments = true) ∧
        Served (raw && c.serves held && c.opened) c.allocs held rest
          (run (parentAcceptSocketConnection raw c held) h) ∨
      (c.serves held = true ∧ quiet c.moments = false) ∧
        (run (parentAcceptSocketConnection raw c held) h).2.sound = false := by
  obtain ⟨text,ports,concurrent⟩ := held
  by_cases served : c.serves ⟨text,ports,concurrent⟩ = true
  · have facts := served
    simp only [Session.serves,Bool.and_eq_true] at facts
    rw [served,Bool.and_true]
    cases ports with
    | nil => exact absurd facts.1 (by simp)
    | cons port ports =>
      obtain ⟨calm,fine⟩ | ⟨harm,bad⟩ := locked_cases raw facts.2 has unlocked
      · exact .inl ⟨fun _ => calm,fine⟩
      · exact .inr ⟨⟨rfl,harm⟩,bad⟩
  · refine .inl ⟨fun serves => absurd serves served,?_⟩
    rw [Bool.eq_false_of_not_eq_true served,Bool.and_false,Bool.false_and]
    unfold parentAcceptSocketConnection
    cases ports with
    | nil => exact .idle has
    | cons port ports =>
      have refused : c.locked = false := by simpa [Session.serves] using served
      dsimp only
      rw [if_neg (by simp [refused])]
      exact .idle has

end

def Event.allocs : Event → List Bool
  | hangup g => g.allocs
  | enter _ => []
  | session c => c.allocs

/-- No process survives a SIGHUP to use the port that it had before. -/
def Harmless (s : State) : Event → Prop
  | .session c => s.entered = true → s.deaf = false → ∀ held ∈ s.held, c.serves held = true → quiet c.moments = true
  | _ => True

/-- The blocks that a process no longer has a pointer to, with this event. -/
def State.leak (raw : Bool) (s : State) (e : Event) : Nat :=
  match s.held,e with
  | some held,.hangup g =>
    if s.deaf = false ∧ g.succeeds = true then (held.text .debuglog).isSome.toNat + held.ports.length + 1 else 0
  | some held,.session c =>
    if raw = true ∧ s.entered = true ∧ c.serves held = true ∧ c.opened = true then 9 else 0
  | _,_ => 0

structure State.Keeps (plenty : Prop) (lost : Nat) (s : State) : Prop where
  sound : s.heap.sound = true
  holds : ∀ held ∈ s.held, held.Unlocked ∧ (plenty → held.Described) ∧
    ∃ others, Consists s.heap (held.blocks + others) ∧ (plenty → others.card = lost)

section
variable {plenty : Prop} {lost : Nat} {s : State}

theorem State.Keeps.weaken (keeps : s.Keeps plenty lost) (n : Nat) : s.Keeps False n := by
  refine ⟨keeps.sound,fun held member => ?_⟩
  obtain ⟨unlocked,_,others,has,_⟩ := keeps.holds held member
  exact ⟨unlocked,nofun,others,has,nofun⟩

theorem leftBehind_card {held : Held} (described : held.Described) :
    held.leftBehind.card = (held.text .debuglog).isSome.toNat + held.ports.length := by
  have each : held.ports.map (fun port => (owned port.description).card) = held.ports.map fun _ => 1 :=
    List.map_congr_left fun port member => by
      obtain ⟨block,there⟩ := Option.ne_none_iff_exists'.mp (described port member)
      simp [there]
  unfold Held.leftBehind
  rw [Multiset.card_add,owned_card,← Multiset.cardHom_apply,map_list_sum,List.map_map]
  exact congrArg _ ((congrArg List.sum each).trans (by simp))

theorem start_keeps (g : Restart) : (State.start g).Keeps (g.allocs = []) 1 := by
  obtain ⟨left,⟨_,fresh⟩,has⟩ := carries_serialIpInit g Heap.empty 0 (empty_consists.congr (zero_add _).symm)
  refine ⟨has.sound,fun held kept => ?_⟩
  obtain ⟨⟨others,rfl,small⟩,unlocked,described⟩ := fresh held kept
  exact ⟨unlocked,described,others,has.congr (add_zero _),small⟩

theorem hangup_keeps (keeps : s.Keeps plenty lost) {g : Restart} (granted : plenty → g.allocs = [])
    (raw : Bool) : (s.process raw (.hangup g)).Keeps plenty (lost + s.leak raw (.hangup g)) := by
  obtain ⟨heap,held,deaf,entered⟩ := s
  cases held with
  | none => cases deaf <;> exact ⟨keeps.sound,nofun⟩
  | some held =>
    cases deaf with
    | true => exact keeps
    | false =>
      obtain ⟨_,described,others,has,small⟩ := keeps.holds held rfl
      obtain ⟨left,⟨survives,fresh⟩,after⟩ := carries_actionSighup g held heap others has
      refine ⟨after.sound,fun now kept => ?_⟩
      obtain ⟨own,⟨⟨defaults,rfl,one⟩,unlocked,again⟩,rfl⟩ := fresh now kept
      refine ⟨unlocked,fun met => again (granted met),defaults + held.leftBehind + others,
        after.congr (by abel),fun met => ?_⟩
      have succeeds : g.succeeds = true := survives.symm.trans (Option.isSome_iff_exists.mpr ⟨now,kept⟩)
      simp only [State.leak,succeeds,and_self,if_true,Multiset.card_add,one (granted met),
        leftBehind_card (described met),small met]
      omega

theorem enter_keeps (keeps : s.Keeps plenty lost) (permitted : Bool) : (s.enter permitted).Keeps plenty lost := by
  obtain ⟨heap,held,deaf,entered⟩ := s
  cases held with
  | none => exact ⟨keeps.sound,nofun⟩
  | some held =>
    cases permitted with
    | false => exact ⟨keeps.sound,nofun⟩
    | true => exact ⟨keeps.sound,keeps.holds⟩

theorem session_cases (raw : Bool) (keeps : s.Keeps plenty lost) (c : Session)
    (granted : plenty → c.allocs = []) :
    (∀ held ∈ s.held, c.serves held = true → quiet c.moments = true) ∧
        (s.turn (parentAcceptSocketConnection raw c)).Keeps plenty (lost +
          if raw = true ∧ (∃ held ∈ s.held, c.serves held = true) ∧ c.opened = true then 9 else 0) ∨
      (∃ held ∈ s.held, c.serves held = true ∧ quiet c.moments = false) ∧
        (s.turn (parentAcceptSocketConnection raw c)).heap.sound = false := by
  obtain ⟨heap,held,deaf,entered⟩ := s
  cases held with
  | none => exact .inl ⟨nofun,keeps.sound,nofun⟩
  | some held =>
    obtain ⟨unlocked,described,others,has,small⟩ := keeps.holds held rfl
    obtain ⟨calm,served⟩ | ⟨harm,bad⟩ := parentAcceptSocketConnection_cases raw c has unlocked
    · refine .inl ⟨fun now kept => Option.mem_some_iff.mp kept ▸ calm,served.sound,fun now kept => ?_⟩
      obtain ⟨rfl,spilt,after,few⟩ := served.holds now kept
      refine ⟨unlocked,described,_,after,fun met => ?_⟩
      rw [Multiset.card_add,few (granted met),small met,add_comm]
      simp [and_assoc]
    · exact .inr ⟨⟨held,rfl,harm⟩,bad⟩

/-- A process with the child's handlers gets no SIGHUP that it would act on. -/
theorem heard_quiet (c : Session) : quiet (c.heard true).moments = true := by
  have only (ms : List Moment) : (ms.filter Moment.plain).all Moment.plain = true :=
    List.all_eq_true.mpr fun m member => (List.mem_filter.mp member).2
  unfold Session.moments Session.heard
  rw [if_pos rfl,quiet_plain (only _),quiet]
  split
  · rw [quiet_plain (only _),quiet,quiet]
  · rfl

theorem heard_facts (deaf : Bool) (c : Session) :
    (∀ held, (c.heard deaf).serves held = c.serves held) ∧ (c.heard deaf).opened = c.opened ∧
      (c.heard deaf).allocs = c.allocs := by
  cases deaf <;> exact ⟨fun _ => rfl,rfl,rfl⟩

theorem leak_enter {raw permitted : Bool} : s.leak raw (.enter permitted) = 0 := by
  unfold State.leak
  split
  · contradiction
  · contradiction
  · rfl

theorem leak_session {raw : Bool} {c : Session} : s.leak raw (.session c) =
    if raw = true ∧ s.entered = true ∧ (∃ held ∈ s.held, c.serves held = true) ∧ c.opened = true then 9 else 0 := by
  obtain ⟨heap,held,deaf,entered⟩ := s
  cases held with
  | none => simp [State.leak]
  | some held => simp [State.leak]

theorem process_cases (raw : Bool) (keeps : s.Keeps plenty lost) (e : Event)
    (granted : plenty → e.allocs = []) :
    Harmless s e ∧ (s.process raw e).Keeps plenty (lost + s.leak raw e) ∨
      ¬Harmless s e ∧ (s.process raw e).heap.sound = false := by
  cases e with
  | hangup g => exact .inl ⟨trivial,hangup_keeps keeps granted raw⟩
  | enter permitted =>
    rw [leak_enter]
    exact .inl ⟨trivial,enter_keeps keeps permitted⟩
  | session c =>
    by_cases entered : s.entered = true
    · have turned : s.process raw (.session c) =
          {s.turn (parentAcceptSocketConnection raw (c.heard s.deaf)) with entered := false} := if_pos entered
      rw [turned]
      obtain ⟨same,opened,allocs⟩ := heard_facts s.deaf c
      obtain ⟨calm,kept⟩ | ⟨⟨held,member,serves,harm⟩,bad⟩ :=
        session_cases raw keeps (c.heard s.deaf) fun met => allocs.trans (granted met)
      · refine .inl ⟨fun _ hears held member serves => ?_,kept.sound,?_⟩
        · rw [hears] at calm
          exact calm held member serves
        · have leaks : s.leak raw (.session c) = if raw = true ∧
              (∃ held ∈ s.held, (c.heard s.deaf).serves held = true) ∧ (c.heard s.deaf).opened = true
                then 9 else 0 := by
            simp only [leak_session,entered,same,opened,true_and]
          rw [leaks]
          exact kept.holds
      · refine .inr ⟨fun harmless => ?_,bad⟩
        cases hears : s.deaf with
        | true =>
          rw [hears,heard_quiet] at harm
          cases harm
        | false =>
          rw [hears] at serves harm
          exact absurd ((harmless entered hears held member serves).symm.trans harm) nofun
    · have still : s.process raw (.session c) = s := if_neg entered
      have nothing : s.leak raw (.session c) = 0 :=
        leak_session.trans (if_neg fun now => entered now.2.1)
      rw [still,nothing]
      exact .inl ⟨fun now => absurd now entered,keeps⟩

theorem turn_unsound (unsound : s.heap.sound = false) (program : Held → Allocating (Option Held)) :
    (s.turn program).heap.sound = false := by
  obtain ⟨heap,held,deaf,entered⟩ := s
  cases held with
  | none => exact unsound
  | some held => exact run_unsound unsound (program held)

theorem process_unsound (raw : Bool) (unsound : s.heap.sound = false) (e : Event) :
    (s.process raw e).heap.sound = false := by
  unfold State.process
  cases e with
  | hangup g =>
    dsimp only
    split
    · exact unsound
    · exact turn_unsound unsound _
  | enter permitted =>
    dsimp only [State.enter]
    split <;> exact unsound
  | session c =>
    dsimp only
    split
    · exact turn_unsound unsound _
    · exact unsound

/-- A process by itself. -/
theorem process_sound_iff (raw : Bool) (keeps : s.Keeps False lost) (events : List Event) :
    (Machine.run (State.process raw) s events).heap.sound = true ↔
      Machine.Along (State.process raw) Harmless s events := by
  refine Machine.run_iff_along (State.Keeps False 0) (fun s => s.heap.sound = true) ?_ ?_ ?_
    (fun _ keeps => keeps.sound) (keeps.weaken 0) events
  · intro s e keeps harmless
    obtain ⟨_,kept⟩ | ⟨harms,_⟩ := process_cases raw keeps e nofun
    · exact kept.weaken 0
    · exact absurd harmless harms
  · intro s e keeps harms
    obtain ⟨harmless,_⟩ | ⟨_,bad⟩ := process_cases raw keeps e nofun
    · exact absurd harmless harms
    · simp [bad]
  · intro s e unsound
    simp [process_unsound raw (Bool.eq_false_of_not_eq_true unsound) e]

end

/-- Neither the process nor a child survives a SIGHUP to use the port that it had before. -/
def Safe (server : ServerType) (s : State) : Round → Prop
  | .event e => server ≠ .concurrent → Harmless s e
  | .child child => server = .concurrent → Machine.Along (State.process false) Harmless s child.events

def Round.allocs : Round → List Bool
  | event e => e.allocs
  | child _ => []

/-- A child takes with it what it loses. -/
def State.lost (server : ServerType) (s : State) : Round → Nat
  | .event e => s.leak (server = .rawTcpGateway) e
  | .child _ => 0

section
variable {plenty : Prop} {lost : Nat} {s : State}

theorem step_event {server : ServerType} (alone : server ≠ .concurrent) (s : State) (e : Event) :
    s.step server (.event e) = s.process (server = .rawTcpGateway) e := by
  cases server with
  | concurrent => exact absurd rfl alone
  | iterative | rawTcpGateway => rfl

theorem forked_cases (keeps : s.Keeps plenty lost) (child : Child) :
    Machine.Along (State.process false) Harmless s child.events ∧ s.forked child = s ∨
      ¬Machine.Along (State.process false) Harmless s child.events ∧ (s.forked child).heap.sound = false := by
  have safe := process_sound_iff false (keeps.weaken 0) child.events
  unfold State.forked
  dsimp only
  rw [← safe]
  cases sound : (Machine.run (State.process false) s child.events).heap.sound with
  | true =>
    rw [Bool.and_true]
    exact .inl ⟨rfl,rfl⟩
  | false => exact .inr ⟨Bool.false_ne_true,Bool.and_false _⟩

theorem step_cases (server : ServerType) (keeps : s.Keeps plenty lost) (round : Round)
    (granted : plenty → round.allocs = []) :
    Safe server s round ∧ (s.step server round).Keeps plenty (lost + s.lost server round) ∨
      ¬Safe server s round ∧ (s.step server round).heap.sound = false := by
  cases round with
  | event e =>
    by_cases family : server = .concurrent
    · subst family
      refine .inl ⟨fun alone => absurd rfl alone,?_⟩
      cases e with
      | hangup g => exact hangup_keeps keeps granted false
      | enter permitted =>
        change s.Keeps plenty (lost + s.leak false (.enter permitted))
        rw [leak_enter]
        exact keeps
      | session c =>
        have nothing : s.leak false (.session c) = 0 :=
          leak_session.trans (if_neg fun now => Bool.false_ne_true now.1)
        change s.Keeps plenty (lost + s.leak false (.session c))
        rw [nothing]
        exact keeps
    · rw [step_event family]
      obtain ⟨harmless,kept⟩ | ⟨harms,bad⟩ := process_cases (server = .rawTcpGateway) keeps e granted
      · exact .inl ⟨fun _ => harmless,kept⟩
      · exact .inr ⟨fun safe => harms (safe family),bad⟩
  | child child =>
    by_cases family : server = .concurrent
    · subst family
      obtain ⟨along,same⟩ | ⟨harms,bad⟩ := forked_cases keeps child
      · refine .inl ⟨fun _ => along,?_⟩
        change (s.forked child).Keeps plenty lost
        rw [same]
        exact keeps
      · exact .inr ⟨fun safe => harms (safe rfl),bad⟩
    · have still : s.step server (.child child) = s := if_neg family
      rw [still]
      exact .inl ⟨fun now => absurd now family,keeps⟩

theorem step_unsound (server : ServerType) (unsound : s.heap.sound = false) (round : Round) :
    (s.step server round).heap.sound = false := by
  cases round with
  | event e =>
    by_cases family : server = .concurrent
    · subst family
      cases e with
      | hangup g => exact process_unsound false unsound (.hangup g)
      | enter permitted | session c => exact unsound
    · rw [step_event family]
      exact process_unsound _ unsound e
  | child child =>
    by_cases family : server = .concurrent
    · subst family
      change (s.heap.sound && _) = false
      rw [unsound]
      rfl
    · have still : s.step server (.child child) = s := if_neg family
      rw [still]
      exact unsound

theorem sound_iff (server : ServerType) (keeps : s.Keeps False lost) (rounds : List Round) :
    (Machine.run (State.step server) s rounds).heap.sound = true ↔
      Machine.Along (State.step server) (Safe server) s rounds := by
  refine Machine.run_iff_along (State.Keeps False 0) (fun s => s.heap.sound = true) ?_ ?_ ?_
    (fun _ keeps => keeps.sound) (keeps.weaken 0) rounds
  · intro s round keeps safe
    obtain ⟨_,kept⟩ | ⟨harms,_⟩ := step_cases server keeps round nofun
    · exact kept.weaken 0
    · exact absurd safe harms
  · intro s round keeps harms
    obtain ⟨safe,_⟩ | ⟨_,bad⟩ := step_cases server keeps round nofun
    · exact absurd safe harms
    · simp [bad]
  · intro s round unsound
    simp [step_unsound server (Bool.eq_false_of_not_eq_true unsound) round]

theorem run_keeps (server : ServerType) (keeps : s.Keeps plenty lost) {rounds : List Round}
    (granted : plenty → ∀ round ∈ rounds, round.allocs = [])
    (along : Machine.Along (State.step server) (Safe server) s rounds) :
    (Machine.run (State.step server) s rounds).Keeps plenty
      (lost + (Machine.emits (State.step server) (fun s round => [s.lost server round]) s rounds).sum) := by
  induction rounds generalizing s lost with
  | nil => exact keeps
  | cons round rounds ih =>
    rw [Machine.emits,List.singleton_append,List.sum_cons,← add_assoc]
    obtain ⟨_,kept⟩ | ⟨harms,_⟩ := step_cases server keeps round
      fun met => granted met round (List.mem_cons_self ..)
    · exact ih kept (fun met other member => granted met other (List.mem_cons_of_mem _ member)) along.2
    · exact absurd along.1 harms

end

/-- As long as there was memory, the listening process has what `conf` leads to, the description
of the reader's defaults, and what it has lost in the restarts and sessions. -/
theorem memory_accounted (server : ServerType) (g : Restart) (rounds : List Round)
    (granted : g.allocs = [] ∧ ∀ round ∈ rounds, round.allocs = [])
    (sound : (Machine.run (State.step server) (.start g) rounds).heap.sound = true) (held : Held)
    (alive : (Machine.run (State.step server) (.start g) rounds).held = some held) :
    (Machine.run (State.step server) (.start g) rounds).heap.live.length = held.blocks.card + 1 +
      (Machine.emits (State.step server) (fun s round => [s.lost server round]) (.start g) rounds).sum := by
  have along := (sound_iff server ((start_keeps g).weaken 0) rounds).mp sound
  have keeps := run_keeps server (start_keeps g) (fun _ => granted.2) along
  obtain ⟨_,_,others,has,few⟩ := keeps.holds held alive
  rw [← Multiset.coe_card,has.live,Multiset.card_add,few granted.1,add_assoc]

def plainRestart : Restart := ⟨plainHost,none,[]⟩

def oneSession : List Round :=
  [.event (.enter true),.event (.session ⟨[],true,[],true,[.use]⟩),.event (.hangup plainRestart)]

theorem oneSession_alive :
    (Machine.run (State.step .rawTcpGateway) (.start plainRestart) oneSession).held.isSome = true := by
  decide +kernel

theorem memory_accounted_oneSession :
    (Machine.run (State.step .rawTcpGateway) (.start plainRestart) oneSession).heap.live.length =
      (Option.get _ oneSession_alive).blocks.card + 1 +
        (Machine.emits (State.step .rawTcpGateway) (fun s round => [s.lost .rawTcpGateway round])
          (.start plainRestart) oneSession).sum :=
  memory_accounted .rawTcpGateway plainRestart oneSession ⟨rfl,by decide⟩ (by decide +kernel) _
    (Option.some_get oneSession_alive).symm

end SerialIp.Memory
