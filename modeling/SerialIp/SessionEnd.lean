import SerialIp.SessionLoop

/-! The end of a session. Both paths write once after each arrival and never again, so
what a short write() leaves is what bffree frees if nothing arrives on that path later. -/
namespace SerialIp
open Library Buffer

def WriteCall.left (call : WriteCall) : List UInt8 := call.offered.drop call.moved.length

/-- What the last call left behind; nothing if there was none. -/
def leftBy (last : Option WriteCall) : List UInt8 := last.elim [] WriteCall.left

def TookAll (last : Option WriteCall) : Prop := ∀ call ∈ last, call.moved = call.offered

theorem leftBy_nil {last : Option WriteCall} (front : ∀ call ∈ last, call.moved <+: call.offered) :
    leftBy last = [] ↔ TookAll last := by
  cases last with
  | none => simp [leftBy,TookAll]
  | some call =>
    obtain ⟨rest,split⟩ := front call rfl
    have left : leftBy (some call) = rest := by
      change call.offered.drop call.moved.length = rest
      rw [← split]
      exact List.drop_left
    have took : TookAll (some call) ↔ call.moved = call.offered := by simp [TookAll]
    rw [left,took,← split]
    simp

/-- One write(): what it does not take is still there. -/
structure WritesFrom (buff next : Buffer) (call : WriteCall) : Prop where
  offered : call.offered = buff.content
  holds : ∃ start, Holds next start call.left
  front : call.moved <+: call.offered

theorem writesFrom {b : Buffer} {start : Int} {xs : List UInt8} (holds : Holds b start xs)
    (reply : WriteReply) : WritesFrom b (writeFromBufferToFd reply b).buff
      ⟨b.content,(writeFromBufferToFd reply b).moved⟩ := by
  obtain ⟨rest,split,after⟩ := writeFromBufferToFd_holds holds reply
  have content := holds.content_eq.trans split
  have left : (WriteCall.mk b.content (writeFromBufferToFd reply b).moved).left = rest := by
    change b.content.drop _ = rest
    rw [content]
    exact List.drop_left
  refine ⟨rfl,?_,⟨rest,content.symm⟩⟩
  rw [left]
  rcases after with ⟨none,same⟩ | after
  · rw [none,List.nil_append] at split
    rw [same,← split]
    exact ⟨start,holds⟩
  · exact ⟨_,after⟩

namespace SessionLoop

/-- Each buffer holds what the last call on its path left. -/
structure Leaves (t : SessionLoop) : Prop where
  invariant : Invariant t.gateway.buff
  serial : t.gateway.buff.content = leftBy t.toSerial
  socket : ∃ start, Holds t.serialToSocket start (leftBy t.toSocket)
  serialFront : ∀ call ∈ t.toSerial, call.moved <+: call.offered
  socketFront : ∀ call ∈ t.toSocket, call.moved <+: call.offered

theorem start_leaves (conf : SessionConf) (s : Session) : (start conf s).Leaves :=
  ⟨bfmalloc_invariant SIZE_BUFFER,(bfmalloc_holds SIZE_BUFFER).content_eq,
    ⟨0,bfmalloc_holds SIZE_BUFFER⟩,nofun,nofun⟩

theorem Leaves.congr {t u : SessionLoop} (leaves : t.Leaves) (buff : u.gateway.buff = t.gateway.buff)
    (serialToSocket : u.serialToSocket = t.serialToSocket) (toSerial : u.toSerial = t.toSerial)
    (toSocket : u.toSocket = t.toSocket) : u.Leaves := by
  refine ⟨?_,?_,?_,?_,?_⟩
  · rw [buff]
    exact leaves.invariant
  · rw [buff,toSerial]
    exact leaves.serial
  · rw [serialToSocket,toSocket]
    exact leaves.socket
  · rw [toSerial]
    exact leaves.serialFront
  · rw [toSocket]
    exact leaves.socketFront

theorem Leaves.checkIdle {t : SessionLoop} (leaves : t.Leaves) (conf : SessionConf) :
    (t.checkIdle conf).Leaves := by
  unfold SessionLoop.checkIdle
  split
  · exact leaves.congr rfl rfl rfl rfl
  · exact leaves

/-- Either nothing has been decoded, or write_serial has been called after it. -/
theorem Leaves.fromSocket {t : SessionLoop} (leaves : t.Leaves) (conf : SessionConf) (turn : Turn) :
    (t.fromSocket conf turn).Leaves := by
  unfold SessionLoop.fromSocket
  split
  · exact leaves.congr rfl rfl rfl rfl
  · have decoded := (readSocket_buffer leaves.invariant turn.recv).1
    dsimp only
    split
    · rename_i failed
      have silent : (readSocket turn.recv t.gateway).2.buff.content = t.gateway.buff.content := by
        rcases readSocket_cases turn.recv t.gateway with ⟨none,same,_⟩ | ⟨_,fine,_⟩
        · have quiet := mt (readFromFdToBuffer_ret t.gateway.buff turn.recv).mpr (not_lt.mpr none)
          have read := (leaves.invariant.read turn.recv).2
          rw [not_not.mp quiet,List.append_nil] at read
          rw [same]
          exact read
        · exact absurd fine failed
      exact ⟨decoded,silent.trans leaves.serial,leaves.socket,leaves.serialFront,leaves.socketFront⟩
    · have written := decoded.write turn.serialWrite
      have writes := writesFrom decoded.toValid.holds turn.serialWrite
      obtain ⟨start,after⟩ := writes.holds
      rw [(writeSerial_buff _ _).1,(writeSerial_buff _ _).2]
      refine ⟨written.1,after.content_eq,leaves.socket,?_,leaves.socketFront⟩
      intro call last
      cases last
      exact writes.front

theorem readSerial_keeps {b : Buffer} {start : Int} {xs : List UInt8} (holds : Holds b start xs)
    (noquote : Bool) (reply : ReadReply) :
    ∃ ys, Holds (readSerial noquote reply b).buff start ys ∧
      ((readSerial noquote reply b).ret ≠ 0 → ys = xs) := by
  have read := readFromFdToBuffer_holds holds reply
  by_cases quiet : (readFromFdToBuffer reply b).moved = []
  · rw [quiet,List.append_nil] at read
    rw [readSerial_quiet noquote quiet]
    exact ⟨xs,read,fun _ => rfl⟩
  · have fine := readSerial_fine noquote quiet
    cases noquote with
    | false => exact ⟨_,(readSerial_holds holds quiet).1,fun failed => absurd fine failed⟩
    | true =>
      rw [readSerial_unquoted]
      exact ⟨_,read,fun failed => absurd fine failed⟩

theorem writeSocket_writesFrom {b : Buffer} {start : Int} {xs : List UInt8}
    (holds : Holds b start xs) (state : SessionState) (reply : WriteReply) :
    WritesFrom b (writeSocket state reply b).buff ⟨b.content,(writeSocket state reply b).moved⟩ := by
  unfold writeSocket
  split
  · refine ⟨rfl,⟨start,?_⟩,List.nil_prefix⟩
    change Holds b start b.content
    rw [holds.content_eq]
    exact holds
  · dsimp only
    split
    · exact writesFrom holds reply
    · exact writesFrom holds reply

theorem Leaves.fromSerial {t : SessionLoop} (leaves : t.Leaves) (conf : SessionConf) (turn : Turn) :
    (t.fromSerial conf turn).Leaves := by
  obtain ⟨start,holds⟩ := leaves.socket
  obtain ⟨ys,received,silent⟩ := readSerial_keeps holds conf.noquote turn.read
  unfold SessionLoop.fromSerial
  split
  · exact leaves.congr rfl rfl rfl rfl
  · dsimp only
    split
    · rename_i failed
      rw [silent failed] at received
      exact ⟨leaves.invariant,leaves.serial,⟨start,received⟩,leaves.serialFront,leaves.socketFront⟩
    · have writes := writeSocket_writesFrom received t.gateway.session.sessionState turn.socketWrite
      refine ⟨leaves.invariant,leaves.serial,writes.holds,leaves.serialFront,?_⟩
      intro call last
      cases last
      exact writes.front

theorem step_leaves {conf : SessionConf} (t : SessionLoop) (turn : Turn) (leaves : t.Leaves) :
    (t.step conf turn).Leaves := by
  apply step_keeps Leaves _ t turn leaves
  intro t turn running leaves
  exact turn_keeps Leaves (fun _ leaves => leaves.checkIdle conf)
    (fun _ _ leaves => leaves.congr rfl rfl rfl rfl)
    (fun _ leaves _ => leaves.fromSocket conf turn) (fun _ leaves _ => leaves.fromSerial conf turn)
    leaves (running_error running)

/-- Nothing that bffree would lose. -/
def NothingLost (t : SessionLoop) : Prop :=
  t.gateway.buff.content = [] ∧ t.serialToSocket.content = []

/-- Whenever and however the loop ends, the two buffers hold what the last write_serial
and the last write_socket were offered and did not take, and nothing else. -/
theorem lost_is_left_by_last_write (conf : SessionConf) (s : Session) (turns : List Turn) :
    let t := Machine.run (step conf) (start conf s) turns
    t.gateway.buff.content = leftBy t.toSerial ∧ t.serialToSocket.content = leftBy t.toSocket ∧
      (t.NothingLost ↔ TookAll t.toSerial ∧ TookAll t.toSocket) := by
  intro t
  have leaves : t.Leaves := Machine.invariant_run Leaves step_leaves (start_leaves conf s) turns
  obtain ⟨first,socket⟩ := leaves.socket
  refine ⟨leaves.serial,socket.content_eq,?_⟩
  unfold NothingLost
  rw [leaves.serial,socket.content_eq,leftBy_nil leaves.serialFront,leftBy_nil leaves.socketFront]

/-- The loop has ended by logout, idle timeout or the end of the file on the socket. -/
def Ended (t : SessionLoop) : Prop :=
  t.gateway.session.clientLoggedIn = false ∨ t.idle ∨ t.gateway.buff.eof

/-- No call reports an error, and every write() takes at least one byte. -/
def Faultless (turn : Turn) : Prop :=
  (∃ data, turn.recv = .bytes data) ∧ (∃ data, turn.read = .bytes data) ∧
    (turn.serialWrite = .all ∨ ∃ limit, turn.serialWrite = .upTo (limit+1)) ∧
      (turn.socketWrite = .all ∨ ∃ limit, turn.socketWrite = .upTo (limit+1))

set_option maxRecDepth 10000 in
/-- The client logs out behind its last data, of which the serial port takes one byte. -/
theorem logout_loses_data : ¬∀ (conf : SessionConf) (s : Session) (turns : List Turn),
    conf.rawFlag = false → s.replies = [] → (∀ turn ∈ turns, Faultless turn) →
    (Machine.run (step conf) (start conf s) turns).Ended →
    (Machine.run (step conf) (start conf s) turns).NothingLost := by
  intro always
  let stack : Block UInt8 := ⟨fun _ => 0,[]⟩
  let turn : Turn := ⟨.ready [.sockfd,.serial],1,.bytes [65,66,IAC,DO,TELOPT_LOGOUT],.upTo 1,
    .bytes [67],.all,⟨stack,stack⟩,⟨stack,stack,0⟩⟩
  have kept := (always ⟨0,false,false⟩ (processStart ⟨⟨0,0,0xBD,0⟩,[]⟩) [turn] rfl rfl ?_ ?_).1
  · have lost : (Machine.run (step ⟨0,false,false⟩) (start ⟨0,false,false⟩
        (processStart ⟨⟨0,0,0xBD,0⟩,[]⟩)) [turn]).gateway.buff.content = [66] := by
      decide +kernel
    rw [lost] at kept
    exact absurd kept (List.cons_ne_nil 66 [])
  · intro other member
    cases List.mem_singleton.mp member
    exact ⟨⟨_,rfl⟩,⟨_,rfl⟩,Or.inr ⟨0,rfl⟩,Or.inl rfl⟩
  · exact Or.inl (by decide +kernel)

end SessionLoop
end SerialIp
