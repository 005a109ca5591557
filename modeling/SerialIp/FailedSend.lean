import SerialIp.Negotiation

/-! What a telnet command leaves behind when its write() does not go through: the command
is appended first, whatever the buffer still holds goes out before it, and a count of
three bytes is taken for success. -/
namespace SerialIp
open Library Buffer Session

theorem writeFromBufferToFd_sends {b : Buffer} {start : Int} {xs : List UInt8}
    (holds : Holds b start xs) (reply : WriteReply) :
    (writeFromBufferToFd reply b).moved = xs.take (reply.taken xs.length).toNat ∧
      (3 ≤ (writeFromBufferToFd reply b).ret ↔ 3 ≤ reply.taken xs.length) := by
  have offered := calNumbytesToWrite_eq holds
  have least : reply.taken xs.length ≤ xs.length := by
    cases reply <;> simp only [WriteReply.taken] <;> omega
  unfold writeFromBufferToFd
  rw [offered]
  dsimp only
  split_ifs with empty refused
  · have none : xs = [] := List.length_eq_zero_iff.mp (by omega)
    rw [none] at least ⊢
    simp only [List.take_nil,List.length_nil,Nat.cast_zero] at least ⊢
    exact ⟨trivial,by omega⟩
  · rw [Int.toNat_of_nonpos refused]
    exact ⟨rfl,Iff.rfl⟩
  · refine ⟨?_,Iff.rfl⟩
    generalize count : (reply.taken xs.length).toNat = n
    have whole : Holds b start (xs.take n ++ xs.drop n) := by
      rw [List.take_append_drop]
      exact holds
    have size : (xs.take n).length = n := by
      rw [List.length_take]
      omega
    have front := (Block.read_split b.mem whole.stored).1
    rw [size,← holds.starts] at front
    exact front

namespace Session

/-- What has gone out to the client and what waits for it, in order. -/
def outgoing (s : Session) : List UInt8 := s.wire.flatten ++ s.sabre.content

theorem writeSabre_taken {s : Session} {start : Int} {xs : List UInt8}
    (holds : Holds s.sabre start xs) :
    (3 ≤ s.writeSabre.1 ↔ 3 ≤ (s.replies.headD .all).taken xs.length) ∧
      s.writeSabre.2.wire.flatten =
        s.wire.flatten ++ xs.take ((s.replies.headD .all).taken xs.length).toNat ∧
      s.writeSabre.2.outgoing = s.wire.flatten ++ xs := by
  obtain ⟨moved,ret⟩ := writeFromBufferToFd_sends holds (s.replies.headD .all)
  obtain ⟨rest,split,after⟩ := writeFromBufferToFd_holds holds (s.replies.headD .all)
  have left : (writeFromBufferToFd (s.replies.headD .all) s.sabre).buff.content = rest := by
    obtain ⟨none,same⟩ | after := after
    · rw [same,holds.content_eq,split,none,List.nil_append]
    · exact after.content_eq
  have offered := calNumbytesToWrite_eq holds
  unfold outgoing writeSabre
  dsimp only
  split
  · rename_i empty
    have none : xs = [] := List.length_eq_zero_iff.mp (by omega)
    rw [holds.content_eq]
    refine ⟨ret,?_,rfl⟩
    rw [none,List.take_nil,List.append_nil]
  · refine ⟨ret,?_,?_⟩
    · rw [List.flatten_append,List.flatten_singleton,moved]
    · rw [List.flatten_append,List.flatten_singleton,left,List.append_assoc,← split]

end Session

/-- How many bytes of a command find room in the buffer towards the client. -/
def queuedBytes (s : Session) : Int := appended s.sabre 3

/-- How many bytes the write() behind a command is offered, and how many it takes. -/
def offeredBytes (s : Session) : Int := s.sabre.content.length+queuedBytes s

def takenBytes (s : Session) : Int := (s.replies.headD .all).taken (offeredBytes s)

theorem queuedBytes_bounds {s : Session} (valid : Valid s.sabre) :
    0 ≤ queuedBytes s ∧ queuedBytes s ≤ 3 := by
  obtain ⟨origin,ordered,bounded,tail,counted⟩ := valid
  unfold queuedBytes appended
  split
  · omega
  · omega

theorem optstr_length (optcode : OptCode) (option : UInt8) :
    (optstr optcode option).length = 3 := rfl

/-- One command that was not sent before, in a session that is not suspended. -/
theorem sendTelnetOption_effect {optcode : OptCode} {option : UInt8} {s : Session}
    (valid : Valid s.sabre) (fresh : telnetOptionWasSent optcode option s = false)
    (resumed : s.sessionState = .RESUME) :
    let result := sendTelnetOption optcode option s
    let command := (optstr optcode option).take (queuedBytes s).toNat
    (result.1 = if 3 ≤ takenBytes s then 0 else 1) ∧
      result.2.wire.flatten =
        s.wire.flatten ++ (s.sabre.content ++ command).take (takenBytes s).toNat ∧
      result.2.outgoing = s.outgoing ++ command ∧
      (takenBytes s < 3 → result.2.tnoptions = s.tnoptions ∧ result.2.tnmode = s.tnmode) := by
  intro result command
  obtain ⟨positive,most⟩ := queuedBytes_bounds valid
  have holds : Holds (s.appendToSabre (optstr optcode option)).sabre s.sabre.writep
      (s.sabre.content ++ command) :=
    bfstrncat_holds valid.holds (optstr optcode option) le_rfl positive
  have offered : ((s.sabre.content ++ command).length : Int) = offeredBytes s := by
    unfold offeredBytes
    rw [List.length_append,List.length_take,optstr_length]
    omega
  obtain ⟨ret,wire,outgoing⟩ := writeSabre_taken holds
  rw [offered] at ret wire
  change 3 ≤ _ ↔ 3 ≤ takenBytes s at ret
  have transmits := writeSabre_transmits (s.appendToSabre (optstr optcode option))
  have grown : s.wire.flatten ++ (s.sabre.content ++ command) = s.outgoing ++ command :=
    (List.append_assoc _ _ _).symm
  have sent : result = if 3 ≤ takenBytes s then
      (0,markTelnetOptionAsSent optcode option (s.appendToSabre (optstr optcode option)).writeSabre.2)
      else (1,(s.appendToSabre (optstr optcode option)).writeSabre.2) := by
    change sendTelnetOption optcode option s = _
    unfold sendTelnetOption
    rw [fresh]
    dsimp only
    rw [if_neg Bool.false_ne_true,
      if_pos (show (s.appendToSabre (optstr optcode option)).sessionState = .RESUME from resumed)]
    exact if_congr ret rfl rfl
  rw [sent]
  split
  · rename_i accepted
    have marked (t : Session) : (markTelnetOptionAsSent optcode option t).outgoing = t.outgoing := by
      cases optcode <;> rfl
    rw [markTelnetOptionAsSent_wire,marked]
    exact ⟨rfl,wire,outgoing.trans grown,fun few => absurd few (not_lt.mpr accepted)⟩
  · exact ⟨rfl,wire,outgoing.trans grown,fun _ => ⟨transmits.tnoptions,transmits.tnmode⟩⟩

theorem sendTelnetOption_sent {optcode : OptCode} {option : UInt8} {s : Session}
    (sent : telnetOptionWasSent optcode option s = true) : (sendTelnetOption optcode option s).1 = 0 := by
  unfold sendTelnetOption
  rw [if_pos sent]

theorem sendTelnetOption_suspended {s : Session} (suspended : s.sessionState ≠ .RESUME)
    (optcode : OptCode) (option : UInt8) :
    (sendTelnetOption optcode option s).1 = 0 ∧
      (sendTelnetOption optcode option s).2.wire = s.wire := by
  unfold sendTelnetOption
  dsimp only
  split
  · exact ⟨rfl,rfl⟩
  · rw [if_neg (show (s.appendToSabre (optstr optcode option)).sessionState ≠ .RESUME from suspended)]
    exact ⟨rfl,rfl⟩

/-- The sends that are reported as a success. -/
def CountedAsSent (optcode : OptCode) (option : UInt8) (s : Session) : Prop :=
  telnetOptionWasSent optcode option s = true ∨ s.sessionState ≠ .RESUME ∨ 3 ≤ takenBytes s

theorem sendTelnetOption_fails_iff {optcode : OptCode} {option : UInt8} {s : Session}
    (valid : Valid s.sabre) : (sendTelnetOption optcode option s).1 = 1 ↔
      ¬CountedAsSent optcode option s := by
  unfold CountedAsSent
  cases fresh : telnetOptionWasSent optcode option s with
  | true =>
    rw [sendTelnetOption_sent fresh]
    exact iff_of_false (by decide) (fun fails => fails (Or.inl rfl))
  | false =>
    by_cases resumed : s.sessionState = .RESUME
    · rw [(sendTelnetOption_effect valid fresh resumed).1]
      simp only [Bool.false_eq_true,resumed,ne_eq,not_true_eq_false,false_or]
      split
      · rename_i enough
        exact iff_of_false (by decide) (fun fails => fails enough)
      · rename_i few
        exact iff_of_true rfl few
    · rw [(sendTelnetOption_suspended resumed optcode option).1]
      exact iff_of_false (by decide) (fun fails => fails (Or.inr (Or.inl resumed)))

/-- What was appended since `s` and still waits in the buffer of `t`. -/
def unsentSince (s t : Session) : List UInt8 :=
  t.outgoing.drop (max s.outgoing.length t.wire.flatten.length)

/-- A failure is reported with nothing changed and nothing left in the buffer. -/
def Traceless (s : Session) (result : Int × Session) : Prop :=
  result.1 = 1 → result.2.tnoptions = s.tnoptions ∧ result.2.tnmode = s.tnmode ∧
    unsentSince s result.2 = []

/-- A command that was appended and is reported as sent has gone out as a whole. -/
def Accepted (optcode : OptCode) (option : UInt8) (s : Session) (result : Int × Session) : Prop :=
  telnetOptionWasSent optcode option s = false → result.1 = 0 →
    s.outgoing ++ optstr optcode option <+: result.2.wire.flatten

theorem unsentSince_iff {s t : Session} {command : List UInt8} {taken : Nat}
    (wire : t.wire.flatten = s.wire.flatten ++ (s.sabre.content ++ command).take taken)
    (grown : t.outgoing = s.outgoing ++ command) :
    unsentSince s t = [] ↔ command = [] ∨ s.sabre.content.length+command.length ≤ taken := by
  unfold unsentSince
  rw [List.drop_eq_nil_iff,grown,wire,← List.length_eq_zero_iff]
  unfold outgoing
  simp only [List.length_append,List.length_take]
  omega

theorem accepted_iff {s t : Session} {optcode : OptCode} {option : UInt8} {queued taken : Nat}
    (wire : t.wire.flatten = s.wire.flatten ++
      (s.sabre.content ++ (optstr optcode option).take queued).take taken) :
    s.outgoing ++ optstr optcode option <+: t.wire.flatten ↔
      3 ≤ queued ∧ s.sabre.content.length+3 ≤ taken := by
  constructor
  · intro within
    have longer := within.length_le
    rw [wire] at longer
    unfold outgoing at longer
    simp only [List.length_append,List.length_take,optstr_length] at longer
    omega
  · intro both
    have whole : (optstr optcode option).take queued = optstr optcode option :=
      List.take_of_length_le both.1
    have all : (s.sabre.content ++ optstr optcode option).take taken =
        s.sabre.content ++ optstr optcode option := by
      apply List.take_of_length_le
      rw [List.length_append]
      exact both.2
    rw [wire,whole,all,← List.append_assoc]
    exact List.prefix_rfl

/-- The condition under which a write() that fails a command leaves none of it behind. -/
def NothingLeft (s : Session) : Prop := queuedBytes s = 0 ∨ offeredBytes s ≤ takenBytes s

theorem sendTelnetOption_traceless_iff {optcode : OptCode} {option : UInt8} {s : Session}
    (valid : Valid s.sabre) : Traceless s (sendTelnetOption optcode option s) ↔
      CountedAsSent optcode option s ∨ NothingLeft s := by
  unfold Traceless
  rw [sendTelnetOption_fails_iff valid,or_iff_not_imp_left]
  refine imp_congr_right fun fails => ?_
  simp only [CountedAsSent,not_or,not_not,Bool.not_eq_true] at fails
  obtain ⟨fresh,resumed,few⟩ := fails
  obtain ⟨_,wire,grown,kept⟩ := sendTelnetOption_effect valid fresh resumed
  obtain ⟨options,mode⟩ := kept (not_le.mp few)
  obtain ⟨positive,most⟩ := queuedBytes_bounds valid
  have size : ((optstr optcode option).take (queuedBytes s).toNat).length = (queuedBytes s).toNat := by
    rw [List.length_take,optstr_length]
    omega
  rw [unsentSince_iff wire grown,← List.length_eq_zero_iff,size]
  unfold NothingLeft offeredBytes
  constructor
  · intro all
    obtain ⟨_,_,nothing⟩ := all
    omega
  · intro nothing
    exact ⟨options,mode,by omega⟩

theorem sendTelnetOption_ret (optcode : OptCode) (option : UInt8) (s : Session) :
    (sendTelnetOption optcode option s).1 = 0 ∨ (sendTelnetOption optcode option s).1 = 1 := by
  unfold sendTelnetOption
  dsimp only
  split_ifs
  · exact Or.inl rfl
  · exact Or.inl rfl
  · exact Or.inr rfl
  · exact Or.inl rfl

theorem sendTelnetOption_accepted_iff {optcode : OptCode} {option : UInt8} {s : Session}
    (valid : Valid s.sabre) : Accepted optcode option s (sendTelnetOption optcode option s) ↔
      (CountedAsSent optcode option s → telnetOptionWasSent optcode option s = true ∨
        s.sessionState = .RESUME ∧ queuedBytes s = 3 ∧ offeredBytes s ≤ takenBytes s) := by
  unfold Accepted
  cases fresh : telnetOptionWasSent optcode option s with
  | true => exact iff_of_true nofun (fun _ => Or.inl rfl)
  | false =>
    rw [forall_prop_of_true rfl]
    have reported : (sendTelnetOption optcode option s).1 = 0 ↔ CountedAsSent optcode option s := by
      have failed : (sendTelnetOption optcode option s).1 = 1 ↔ ¬CountedAsSent optcode option s :=
        sendTelnetOption_fails_iff valid
      obtain fine | failing := sendTelnetOption_ret optcode option s
      · rw [fine] at failed ⊢
        exact iff_of_true rfl (not_not.mp (fun fails => absurd (failed.mpr fails) (by decide)))
      · rw [failing] at failed ⊢
        exact iff_of_false (by decide) (failed.mp rfl)
    rw [reported]
    refine imp_congr_right fun counted => ?_
    by_cases resumed : s.sessionState = .RESUME
    · obtain ⟨_,wire,_,_⟩ := sendTelnetOption_effect valid fresh resumed
      obtain ⟨positive,most⟩ := queuedBytes_bounds valid
      rw [accepted_iff wire]
      simp only [Bool.false_eq_true,false_or,resumed,true_and]
      unfold offeredBytes
      omega
    · obtain ⟨_,same⟩ := sendTelnetOption_suspended resumed optcode option
      refine iff_of_false ?_ ?_
      · intro within
        have longer := within.length_le
        rw [same] at longer
        unfold outgoing at longer
        simp only [List.length_append,optstr_length] at longer
        omega
      · intro right
        obtain sent | active := right
        · contradiction
        · exact resumed active.1

/-- The functions that send one command, the last two only where an answer is due. -/
inductive Sender
  | sendTelnetOption
  | sendInitTelnetOption
  | respondKnownTelnetOption
  | respondTelnetBinaryOption

namespace Sender

def call : Sender → OptCode → UInt8 → Session → Int × Session
  | sendTelnetOption => SerialIp.sendTelnetOption
  | sendInitTelnetOption => SerialIp.sendInitTelnetOption
  | respondKnownTelnetOption => SerialIp.respondKnownTelnetOption
  | respondTelnetBinaryOption => SerialIp.respondTelnetBinaryOption

/-- The calls that leave no trace behind when they fail. For send_telnet_option this
includes that a success is one: the whole command found room and everything was taken. -/
def Clean (optcode : OptCode) (option : UInt8) (s : Session) : Sender → Prop
  | sendTelnetOption =>
    telnetOptionWasSent optcode option s = true ∨ s.sessionState = .RESUME ∧
      if 3 ≤ takenBytes s then queuedBytes s = 3 ∧ offeredBytes s ≤ takenBytes s else NothingLeft s
  | sendInitTelnetOption => CountedAsSent optcode option s ∨ NothingLeft s
  | respondKnownTelnetOption | respondTelnetBinaryOption =>
    (s.tnoptions option).flag optcode.side = optcode.enables ∨ CountedAsSent optcode.reply option s

end Sender

theorem answerTelnetOption_ret (setMode : Side → TnMode → Session → Session) (optcode : OptCode)
    (option : UInt8) (s : Session) : (answerTelnetOption setMode optcode option s).1 =
      if (s.tnoptions option).flag optcode.side = optcode.enables then 0
      else (sendTelnetOption optcode.reply option s).1 := by
  cases optcode with
  | WILL | WONT =>
    cases enabled : (s.tnoptions option).client <;>
      (simp only [answerTelnetOption,telnetClientOptionIsDisabled,telnetClientOptionIsEnabled,
        OptCode.side,TelnetOptions.flag,enabled]
       rfl)
  | DO | DONT =>
    cases enabled : (s.tnoptions option).server <;>
      (simp only [answerTelnetOption,telnetServerOptionIsDisabled,telnetServerOptionIsEnabled,
        OptCode.side,TelnetOptions.flag,enabled]
       rfl)

/-- An answer turns its option whether or not it has gone out. -/
theorem answerTelnetOption_traceless_iff {setMode : Side → TnMode → Session → Session}
    (neutral : ∀ side mode s, (setMode side mode s).tnoptions = s.tnoptions) {optcode : OptCode}
    {option : UInt8} {s : Session} (valid : Valid s.sabre) :
    Traceless s (answerTelnetOption setMode optcode option s) ↔
      (s.tnoptions option).flag optcode.side = optcode.enables ∨
        CountedAsSent optcode.reply option s := by
  unfold Traceless
  rw [answerTelnetOption_ret,answerTelnetOption_eq]
  split
  · rename_i same
    exact iff_of_true nofun (Or.inl same)
  · rename_i different
    rw [sendTelnetOption_fails_iff valid]
    constructor
    · intro kept
      right
      by_contra failing
      obtain ⟨same,_⟩ := kept failing
      rw [neutral] at same
      apply different
      rw [← same,setFlag_flag,if_pos ⟨rfl,rfl⟩]
    · intro counted failing
      obtain same | counted := counted
      · exact absurd same different
      · exact absurd counted failing

theorem answerKnown_traceless_iff (optcode : OptCode) (option : UInt8) {s : Session}
    (valid : Valid s.sabre) : Traceless s (answerKnown optcode option s) ↔
      (s.tnoptions option).flag optcode.side = optcode.enables ∨
        CountedAsSent optcode.reply option s :=
  answerTelnetOption_traceless_iff (fun _ _ _ => rfl) valid

theorem answerBinary_traceless_iff (optcode : OptCode) (option : UInt8) {s : Session}
    (valid : Valid s.sabre) : Traceless s (answerBinary optcode option s) ↔
      (s.tnoptions option).flag optcode.side = optcode.enables ∨
        CountedAsSent optcode.reply option s := by
  apply answerTelnetOption_traceless_iff _ valid
  intro side mode t
  rfl

/-- Each of the four functions leaves no trace of a failed command, and send_telnet_option
reports no success before its time, exactly on these calls. -/
theorem traceless_iff (sender : Sender) (optcode : OptCode) (option : UInt8) (s : Session)
    (valid : Valid s.sabre) : Traceless s (sender.call optcode option s) ∧
        (sender = .sendTelnetOption → Accepted optcode option s (sender.call optcode option s)) ↔
      sender.Clean optcode option s := by
  cases sender with
  | sendTelnetOption =>
    change Traceless s (sendTelnetOption optcode option s) ∧ (_ → Accepted _ _ s
      (sendTelnetOption optcode option s)) ↔ _
    rw [forall_prop_of_true rfl,sendTelnetOption_traceless_iff valid,
      sendTelnetOption_accepted_iff valid]
    unfold Sender.Clean CountedAsSent
    dsimp only
    -- In a session that is suspended nothing is written and success is reported.
    by_cases enough : 3 ≤ takenBytes s
    · rw [if_pos enough]
      grind
    · rw [if_neg enough]
      grind
  | sendInitTelnetOption => exact (and_iff_left nofun).trans (sendTelnetOption_traceless_iff valid)
  | respondKnownTelnetOption =>
    refine (and_iff_left nofun).trans ?_
    change Traceless s (respondKnownTelnetOption optcode option s) ↔ _
    unfold respondKnownTelnetOption
    split
    · exact answerBinary_traceless_iff optcode option valid
    · exact answerKnown_traceless_iff optcode option valid
  | respondTelnetBinaryOption =>
    refine (and_iff_left nofun).trans ?_
    change Traceless s (respondTelnetBinaryOption optcode option s) ↔ _
    unfold respondTelnetBinaryOption
    split
    · exact answerKnown_traceless_iff optcode option valid
    · exact answerBinary_traceless_iff optcode option valid

/-- Two bytes wait in the buffer, and write() takes them together with the command. -/
theorem traceless_iff_all :
    let s := {processStart ⟨⟨0,0,0xBD,0⟩,[]⟩ with sabre := (bfstrcat (bfmalloc 8) [65,66]).2}
    Traceless s (Sender.sendTelnetOption.call .DO TELOPT_COM_PORT_OPTION s) ∧
      (Sender.sendTelnetOption = .sendTelnetOption → Accepted .DO TELOPT_COM_PORT_OPTION s
        (Sender.sendTelnetOption.call .DO TELOPT_COM_PORT_OPTION s)) := by
  intro s
  have valid : Valid s.sabre := ⟨by decide,by decide,by decide,by decide,by decide⟩
  refine (traceless_iff .sendTelnetOption .DO TELOPT_COM_PORT_OPTION s valid).mpr ?_
  refine Or.inr ⟨rfl,?_⟩
  rw [if_pos (by decide)]
  decide

/-- The buffer is empty, and write() is interrupted. -/
theorem interrupted_send_left : ¬∀ (sender : Sender) (optcode : OptCode) (option : UInt8)
    (s : Session), Valid s.sabre → Traceless s (sender.call optcode option s) ∧
      (sender = .sendTelnetOption → Accepted optcode option s (sender.call optcode option s)) := by
  intro always
  let s := {processStart ⟨⟨0,0,0xBD,0⟩,[]⟩ with sabre := bfmalloc 8, replies := [.interrupted]}
  have valid : Valid s.sabre := ⟨by decide,by decide,by decide,by decide,by decide⟩
  obtain ⟨traceless,_⟩ := always .sendTelnetOption .DO TELOPT_COM_PORT_OPTION s valid
  obtain ⟨_,_,nothing⟩ := traceless (by decide)
  exact absurd nothing (by decide)

end SerialIp
