import SerialIp.ClientUnits
import SerialIp.SerialToSocket
import SerialIp.TelnetEffects

/-! Two buffers on one socket: what the serial port sent, through write_socket, and the
gateway's own commands, through the functions that send them. Each keeps what a short
write() left over until it is written from again. -/
namespace SerialIp
open Library Buffer Library.Framing Library.Framing.Code

inductive Origin
  | serial
  | sabre
  deriving DecidableEq

/-- `stream` is what the client has received, each byte with the buffer it is from. -/
structure SharedSocket where
  serial : Buffer
  session : Session
  stream : List (Origin × UInt8)

inductive SharedMove
  | readSerial (reply : ReadReply)
  | writeSocket (reply : WriteReply)
  | sendTelnetOption (reply : WriteReply) (optcode : OptCode) (option : UInt8)
  | sendTelnetCpcSuboption (reply : WriteReply) (suboptcode : UInt8) (content : List UInt8)

namespace SharedSocket

def start (s : Session) : SharedSocket :=
  ⟨bfmalloc SIZE_BUFFER,{s with sabre := bfmalloc SIZE_BUFFER},[]⟩

/-- A session whose next write() is answered by `reply`. -/
def facing (reply : WriteReply) (s : Session) : Session := {s with replies := [reply], wire := []}

def transmit (reply : WriteReply) (send : Session → Session) (t : SharedSocket) : SharedSocket :=
  let session := send (facing reply t.session)
  {t with session := session, stream := t.stream ++ session.wire.flatten.map (Origin.sabre,·)}

def step (t : SharedSocket) : SharedMove → SharedSocket
  | .readSerial reply => {t with serial := (readSerial false reply t.serial).buff}
  | .writeSocket reply =>
    let result := writeSocket t.session.sessionState reply t.serial
    {t with serial := result.buff, stream := t.stream ++ result.moved.map (Origin.serial,·)}
  | .sendTelnetOption reply optcode option =>
    t.transmit reply fun s => (sendTelnetOption optcode option s).2
  | .sendTelnetCpcSuboption reply suboptcode content =>
    t.transmit reply fun s => (sendTelnetCpcSuboption suboptcode content s).2

/-- The client after everything it has received. -/
def line (t : SharedSocket) : Option (Line client Origin) := (Line.idle).receiveAll t.stream

/-- The buffer of which the client has received a unit in part. -/
def cut (t : SharedSocket) : Option Origin := t.line.bind Line.source

/-- A write() that takes bytes finds no unit of the other buffer cut. -/
def Uncut (t : SharedSocket) (other : Origin) (reply : WriteReply) (offered : Int) : Prop :=
  t.session.sessionState = .RESUME → 0 < reply.taken offered → t.cut ≠ some other

/-- The gateway's own buffer has room for a command, and it is sent on an uncut line. -/
def Admits (t : SharedSocket) (reply : WriteReply) (command : List UInt8) : Prop :=
  t.session.sabre.readp+command.length ≤ t.session.sabre.tailp ∧
    t.Uncut .serial reply (t.session.sabre.nbuffered+command.length)

def Undisturbed (t : SharedSocket) : SharedMove → Prop
  | .readSerial reply =>
    let data := (readFromFdToBuffer reply t.serial).moved
    data ≠ [] → t.cut ≠ some .serial ∧
      t.serial.readp+data.length+(t.serial.content ++ data).count IAC ≤ t.serial.size
  | .writeSocket reply => t.Uncut .sabre reply t.serial.nbuffered
  | .sendTelnetOption reply optcode option =>
    ¬telnetOptionWasSent optcode option t.session → t.Admits reply (optstr optcode option)
  | .sendTelnetCpcSuboption reply suboptcode content =>
    suboptcode ≠ IAC ∧ (∃ kept, (stuff IAC content).take 253 = stuff IAC kept) ∧
      t.Admits reply (suboption suboptcode content)

/-- Units of one buffer each, of which at most the last one is incomplete; this is also
what the bytes alone are. -/
def FramedStream (t : SharedSocket) : Prop :=
  Framed (Line.encodeFrom ClientUnit.encode) t.stream ∧
    Framed ClientUnit.encode (t.stream.map (·.2))

/-- The client is within the units that the buffers have begun, and what the buffers
still hold completes them. -/
structure Tracks (t : SharedSocket) (line : Line client Origin) : Prop where
  received : t.line = some line
  serialValid : Invariant t.serial
  sabreValid : Invariant t.session.sabre
  serial : client.Completes (line.phase .serial) t.serial.content
  sabre : client.Completes (line.phase .sabre) t.session.sabre.content

end SharedSocket

open Session

/-- What a function that sends `bytes` makes of a session with `reply` to come. -/
structure Sends (bytes : List UInt8) (reply : WriteReply) (s t : Session) : Prop where
  valid : Invariant t.sabre
  split : s.sabre.content ++ bytes = t.wire.flatten ++ t.sabre.content
  taken : t.wire.flatten ≠ [] →
    s.sessionState = .RESUME ∧ 0 < reply.taken (s.sabre.nbuffered+bytes.length)

theorem writeFromBufferToFd_taken {b : Buffer} {reply : WriteReply} (invariant : Invariant b)
    (moved : (writeFromBufferToFd reply b).moved ≠ []) : 0 < reply.taken b.nbuffered := by
  have holds := invariant.toValid.holds
  have offered : calNumbytesToWrite b = b.nbuffered :=
    (calNumbytesToWrite_eq holds).trans holds.counted.symm
  unfold writeFromBufferToFd at moved
  rw [offered] at moved
  dsimp only at moved
  split_ifs at moved
  · exact absurd rfl moved
  · exact absurd rfl moved
  · omega

theorem Sends.nothing {reply : WriteReply} {s : Session} (invariant : Invariant s.sabre)
    (silent : s.wire = []) : Sends [] reply s s := by
  refine ⟨invariant,?_,?_⟩
  · rw [silent,List.append_nil]
    rfl
  · rw [silent]
    exact fun some => absurd rfl some

section
variable {s : Session} {bytes : List UInt8} {reply : WriteReply} (invariant : Invariant s.sabre)
  (silent : s.wire = []) (room : s.sabre.readp+bytes.length ≤ s.sabre.tailp)
include invariant silent room

theorem appendToSabre_sends : Sends bytes reply s (s.appendToSabre bytes) := by
  obtain ⟨valid,content⟩ := invariant.append room
  have wire : (s.appendToSabre bytes).wire = [] := silent
  refine ⟨valid,?_,?_⟩
  · rw [wire]
    exact content.symm
  · rw [wire]
    exact fun some => absurd rfl some

theorem writeSabre_sends (replies : s.replies = [reply]) (resumed : s.sessionState = .RESUME) :
    Sends bytes reply s (s.appendToSabre bytes).writeSabre.2 := by
  have appended : Sends bytes reply s (s.appendToSabre bytes) :=
    appendToSabre_sends invariant silent room
  obtain ⟨valid,rest⟩ := appended.valid.write reply
  have wire : (s.appendToSabre bytes).wire = [] := silent
  have answer : (s.appendToSabre bytes).replies = [reply] := replies
  have counted : (s.appendToSabre bytes).sabre.nbuffered = s.sabre.nbuffered+bytes.length := by
    have before := invariant.toValid.holds.counted
    have after := appended.valid.toValid.holds.counted
    have split := congrArg List.length appended.split
    rw [wire,List.flatten_nil,List.nil_append,List.length_append] at split
    omega
  have split := appended.split
  rw [wire,List.flatten_nil,List.nil_append,rest] at split
  unfold writeSabre
  rw [answer,wire]
  dsimp only [List.headD_cons]
  split_ifs
  · exact appended
  · refine ⟨valid,?_,?_⟩
    · simpa using split
    · simp only [List.nil_append,List.flatten_cons,List.flatten_nil,List.append_nil]
      intro moved
      have some := writeFromBufferToFd_taken appended.valid moved
      rw [counted] at some
      exact ⟨resumed,some⟩

end

theorem markTelnetOptionAsSent_sends {s t : Session} {bytes : List UInt8} {reply : WriteReply}
    (sends : Sends bytes reply s t) (optcode : OptCode) (option : UInt8) :
    Sends bytes reply s (markTelnetOptionAsSent optcode option t) := by
  cases optcode <;> exact ⟨sends.valid,sends.split,sends.taken⟩

theorem sendTelnetOption_sends {s : Session} {reply : WriteReply} {optcode : OptCode}
    {option : UInt8} (invariant : Invariant s.sabre) (silent : s.wire = [])
    (replies : s.replies = [reply]) (fresh : ¬telnetOptionWasSent optcode option s)
    (room : s.sabre.readp+(optstr optcode option).length ≤ s.sabre.tailp) :
    Sends (optstr optcode option) reply s (sendTelnetOption optcode option s).2 := by
  unfold sendTelnetOption
  rw [if_neg fresh]
  dsimp only
  split
  · rename_i resumed
    have sent := writeSabre_sends invariant silent room replies resumed
    split
    · exact markTelnetOptionAsSent_sends sent optcode option
    · exact sent
  · exact appendToSabre_sends invariant silent room

theorem sendTelnetCpcSuboption_sends {s : Session} {reply : WriteReply} {suboptcode : UInt8}
    {content : List UInt8} (invariant : Invariant s.sabre) (silent : s.wire = [])
    (replies : s.replies = [reply])
    (room : s.sabre.readp+(suboption suboptcode content).length ≤ s.sabre.tailp) :
    Sends (suboption suboptcode content) reply s (sendTelnetCpcSuboption suboptcode content s).2 := by
  have built (block : Block UInt8) {t : Session}
      (sends : Sends (suboption suboptcode content) reply {s with optstr := block} t) :
      Sends (suboption suboptcode content) reply s t := ⟨sends.valid,sends.split,sends.taken⟩
  unfold sendTelnetCpcSuboption
  dsimp only
  rw [buildSuboption_read]
  split
  · rename_i resumed
    have sent : Sends (suboption suboptcode content) reply s
        ({s with optstr := (buildSuboption s.optstr suboptcode content).1}.appendToSabre
          (suboption suboptcode content)).writeSabre.2 :=
      built _ (writeSabre_sends invariant silent room replies resumed)
    split
    · exact sent
    · exact sent
  · exact built _ (appendToSabre_sends invariant silent room)

namespace SharedSocket

theorem Tracks.source {t : SharedSocket} {line : Line client Origin} (tracks : t.Tracks line) :
    t.cut = line.source := by
  unfold cut
  rw [tracks.received]
  rfl

/-- The other buffer's units are whole, so the line is free for this one. -/
theorem Tracks.free {t : SharedSocket} {line : Line client Origin} (tracks : t.Tracks line)
    {origin other : Origin} (different : other ≠ origin) (uncut : t.cut ≠ some other) :
    line.Free origin := by
  rw [Line.free_iff]
  rw [tracks.source] at uncut
  cases source : line.source with
  | none => exact Or.inl rfl
  | some busy =>
    rw [source] at uncut
    cases busy <;> cases origin <;> cases other <;> simp_all

/-- One buffer sends a part of what it holds while no unit of the other is cut. -/
theorem Tracks.sent {t : SharedSocket} {line : Line client Origin} (tracks : t.Tracks line)
    {origin other : Origin} (different : other ≠ origin) {sent rest : List UInt8}
    (uncut : sent ≠ [] → t.cut ≠ some other)
    (completes : client.Completes (line.phase origin) (sent ++ rest)) :
    ∃ next : Line client Origin, Line.idle.receiveAll (t.stream ++ sent.map (origin,·)) = some next ∧
      client.Completes (next.phase origin) rest ∧ next.phase other = line.phase other := by
  have free : sent = [] ∨ line.Free origin := by
    by_cases none : sent = []
    · exact Or.inl none
    · exact Or.inr (tracks.free different (uncut none))
  obtain ⟨next,received,later,others⟩ := Line.send free completes
  refine ⟨next,?_,later,others other different⟩
  rw [Line.receiveAll_append]
  exact (congrArg (Option.bind · _) tracks.received).trans received

theorem transmit_tracks {t : SharedSocket} {line : Line client Origin} (tracks : t.Tracks line)
    {reply : WriteReply} (send : Session → Session) {bytes : List UInt8}
    (complete : client.Completes .data bytes)
    (sends : Sends bytes reply (facing reply t.session) (send (facing reply t.session)))
    (uncut : (send (facing reply t.session)).wire.flatten ≠ [] → t.cut ≠ some .serial) :
    ∃ next, (t.transmit reply send).Tracks next := by
  have completes : client.Completes (line.phase .sabre) (t.session.sabre.content ++ bytes) :=
    tracks.sabre.append complete
  rw [show t.session.sabre.content ++ bytes = _ from sends.split] at completes
  obtain ⟨next,received,later,serial⟩ := tracks.sent (by decide) uncut completes
  refine ⟨next,received,tracks.serialValid,sends.valid,?_,later⟩
  rw [serial]
  exact tracks.serial

theorem sendTelnetOption_tracks {t : SharedSocket} {line : Line client Origin}
    (tracks : t.Tracks line) (reply : WriteReply) (optcode : OptCode) (option : UInt8)
    (undisturbed : t.Undisturbed (.sendTelnetOption reply optcode option)) :
    ∃ next, (t.step (.sendTelnetOption reply optcode option)).Tracks next := by
  have valid : Invariant (facing reply t.session).sabre := tracks.sabreValid
  by_cases sent : telnetOptionWasSent optcode option (facing reply t.session)
  · have same : (sendTelnetOption optcode option (facing reply t.session)).2 = facing reply t.session := by
      unfold sendTelnetOption
      rw [if_pos sent]
    have nothing : Sends [] reply (facing reply t.session)
        (sendTelnetOption optcode option (facing reply t.session)).2 := by
      rw [same]
      exact Sends.nothing valid rfl
    have silent : (sendTelnetOption optcode option (facing reply t.session)).2.wire = [] := by
      rw [same]
      rfl
    exact transmit_tracks tracks (fun s => (sendTelnetOption optcode option s).2)
      (show client.Completes .data [] from rfl) nothing
      (fun some => absurd (congrArg List.flatten silent) some)
  · obtain ⟨room,uncut⟩ := undisturbed sent
    have sends := sendTelnetOption_sends valid rfl rfl sent room
    exact transmit_tracks tracks (fun s => (sendTelnetOption optcode option s).2)
      (optstr_completes optcode option) sends
      (fun some => uncut (sends.taken some).1 (sends.taken some).2)

theorem sendTelnetCpcSuboption_tracks {t : SharedSocket} {line : Line client Origin}
    (tracks : t.Tracks line) (reply : WriteReply) (suboptcode : UInt8) (content : List UInt8)
    (undisturbed : t.Undisturbed (.sendTelnetCpcSuboption reply suboptcode content)) :
    ∃ next, (t.step (.sendTelnetCpcSuboption reply suboptcode content)).Tracks next := by
  obtain ⟨plain,⟨kept,whole⟩,room,uncut⟩ := undisturbed
  have valid : Invariant (facing reply t.session).sabre := tracks.sabreValid
  have sends := sendTelnetCpcSuboption_sends valid rfl rfl room
  exact transmit_tracks tracks (fun s => (sendTelnetCpcSuboption suboptcode content s).2)
    (suboption_completes plain whole) sends
    (fun some => uncut (sends.taken some).1 (sends.taken some).2)

theorem readSerial_tracks {t : SharedSocket} {line : Line client Origin} (tracks : t.Tracks line)
    (reply : ReadReply) (undisturbed : t.Undisturbed (.readSerial reply)) :
    (t.step (.readSerial reply)).Tracks line := by
  by_cases quiet : (readFromFdToBuffer reply t.serial).moved = []
  · have read := tracks.serialValid.read reply
    rw [quiet,List.append_nil,← readSerial_quiet false quiet] at read
    refine ⟨tracks.received,read.1,tracks.sabreValid,?_,tracks.sabre⟩
    exact (congrArg (client.Completes _) read.2).mpr tracks.serial
  · obtain ⟨uncut,room⟩ := undisturbed quiet
    obtain ⟨holds,_,capacity⟩ := readSerial_holds tracks.serialValid.toValid.holds quiet
    have between : line.phase .serial = .data := by
      rw [tracks.source] at uncut
      exact Line.phase_of_source uncut
    have origin := tracks.serialValid.origin
    have before := tracks.serialValid.toValid.holds.stops
    have grown := stuff_length IAC (t.serial.content ++ (readFromFdToBuffer reply t.serial).moved)
    refine ⟨tracks.received,?_,tracks.sabreValid,?_,tracks.sabre⟩
    · apply holds.invariant origin
      · rw [List.length_append] at grown
        omega
      · intro none
        rw [none,List.length_nil,List.length_append] at grown
        exact absurd (List.length_eq_zero_iff.mp (by omega)) quiet
    · rw [between]
      exact (congrArg (client.Completes _) holds.content_eq).mpr (stuff_completes _)

theorem writeSocket_taken {b : Buffer} (invariant : Invariant b) {state : SessionState}
    {reply : WriteReply} (some : (writeSocket state reply b).moved ≠ []) :
    state = .RESUME ∧ 0 < reply.taken b.nbuffered := by
  unfold writeSocket at some
  cases state with
  | SUSPEND => exact absurd rfl some
  | RESUME =>
    have moved : (writeFromBufferToFd reply b).moved ≠ [] := by
      rw [if_neg (by decide)] at some
      dsimp only at some
      split at some
      · exact some
      · exact some
    exact ⟨rfl,writeFromBufferToFd_taken invariant moved⟩

theorem writeSocket_tracks {t : SharedSocket} {line : Line client Origin} (tracks : t.Tracks line)
    (reply : WriteReply) (uncut : t.Uncut .sabre reply t.serial.nbuffered) :
    ∃ next, (t.step (.writeSocket reply)).Tracks next := by
  obtain ⟨valid,split⟩ := writeSocket_invariant tracks.serialValid t.session.sessionState reply
  have completes := tracks.serial
  rw [split] at completes
  have whole : (writeSocket t.session.sessionState reply t.serial).moved ≠ [] →
      t.cut ≠ some .sabre := by
    intro some
    obtain ⟨resumed,taken⟩ := writeSocket_taken tracks.serialValid some
    exact uncut resumed taken
  obtain ⟨next,received,later,sabre⟩ := tracks.sent (by decide) whole completes
  refine ⟨next,received,valid,tracks.sabreValid,later,?_⟩
  rw [sabre]
  exact tracks.sabre

theorem step_tracks (t : SharedSocket) (move : SharedMove) (tracks : ∃ line, t.Tracks line)
    (undisturbed : t.Undisturbed move) : ∃ line, (t.step move).Tracks line := by
  obtain ⟨line,tracks⟩ := tracks
  cases move with
  | readSerial reply => exact ⟨line,readSerial_tracks tracks reply undisturbed⟩
  | writeSocket reply => exact writeSocket_tracks tracks reply undisturbed
  | sendTelnetOption reply optcode option =>
    exact sendTelnetOption_tracks tracks reply optcode option undisturbed
  | sendTelnetCpcSuboption reply suboptcode content =>
    exact sendTelnetCpcSuboption_tracks tracks reply suboptcode content undisturbed

theorem Tracks.framedStream {t : SharedSocket} {line : Line client Origin} (tracks : t.Tracks line) :
    t.FramedStream := by
  have framed := Line.framed client_recognises tracks.received
  refine ⟨framed,framed.map Prod.snd Prod.snd ?_⟩
  intro unit
  unfold Line.encodeFrom
  rw [List.map_map]
  exact List.map_id _

theorem start_tracks (s : Session) : (start s).Tracks .idle := by
  have empty : (bfmalloc SIZE_BUFFER).content = [] := (bfmalloc_holds SIZE_BUFFER).content_eq
  refine ⟨rfl,bfmalloc_invariant _,bfmalloc_invariant _,?_,?_⟩
  · exact (congrArg (client.Completes _) empty).mpr rfl
  · exact (congrArg (client.Completes _) empty).mpr rfl

/-- Whatever each write() takes: the client receives whole units as long as no step
writes or refills while a unit is cut that it could disturb, and every command fits. -/
theorem framed_of_undisturbed (s : Session) (moves : List SharedMove)
    (undisturbed : Machine.Along step Undisturbed (start s) moves) :
    Machine.Throughout step FramedStream (start s) moves := by
  have enough (t : SharedSocket) (tracks : ∃ line, t.Tracks line) : t.FramedStream := by
    obtain ⟨line,tracks⟩ := tracks
    exact tracks.framedStream
  have begins : ∃ line, (start s).Tracks line := ⟨.idle,start_tracks s⟩
  exact Machine.throughout_along (fun t => ∃ line, t.Tracks line) Undisturbed step_tracks enough
    begins undisturbed

set_option maxRecDepth 10000 in
/-- A doubled IAC cut by a short write() and completed before the command is sent. -/
theorem framed_of_undisturbed_cut : Machine.Throughout step FramedStream
    (start (processStart ⟨⟨0,0,0xBD,0⟩,[]⟩)) [.readSerial (.bytes [IAC]),.writeSocket (.upTo 1),
      .writeSocket .all,.sendTelnetOption (.upTo 1) .DO TELOPT_COM_PORT_OPTION] := by
  apply framed_of_undisturbed
  refine ⟨?_,?_,?_,?_,trivial⟩
  · unfold Undisturbed
    decide +kernel
  · unfold Undisturbed Uncut
    decide +kernel
  · unfold Undisturbed Uncut
    decide +kernel
  · unfold Undisturbed Admits Uncut
    decide +kernel

set_option maxRecDepth 10000 in
/-- A command that is sent between the two halves of a doubled IAC. -/
theorem command_within_iac : ¬∀ (s : Session) (moves : List SharedMove),
    Framed ClientUnit.encode ((Machine.run step (start s) moves).stream.map (·.2)) := by
  intro always
  have framed := always (processStart ⟨⟨0,0,0xBD,0⟩,[]⟩) [.readSerial (.bytes [IAC]),
    .writeSocket (.upTo 1),.sendTelnetOption .all .DO TELOPT_COM_PORT_OPTION,.writeSocket .all,
    .readSerial (.bytes [65]),.writeSocket .all]
  have received : (Machine.run step (start (processStart ⟨⟨0,0,0xBD,0⟩,[]⟩))
      [.readSerial (.bytes [IAC]),.writeSocket (.upTo 1),
        .sendTelnetOption .all .DO TELOPT_COM_PORT_OPTION,.writeSocket .all,
        .readSerial (.bytes [65]),.writeSocket .all]).stream.map (·.2) =
      [IAC,IAC,DO,TELOPT_COM_PORT_OPTION,IAC,65] := by
    decide +kernel
  rw [received] at framed
  obtain ⟨phase,readable⟩ := client_recognises.readable framed
  exact absurd (readable.symm.trans (show _ = none from rfl)) (Option.some_ne_none phase)

end SharedSocket
end SerialIp
