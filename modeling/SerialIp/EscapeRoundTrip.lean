import SerialIp.SerialToSocket
import SerialIp.SuboptionFraming

/-! Escaping and decoding are inverse: what escape_iac_chars doubles on the way to
the client is what process_telnet_options takes out again on the way back. -/
namespace SerialIp
open Library Buffer

theorem escapeIacChars_valid {b : Buffer} (valid : Valid b)
    (room : (b.content.count IAC : Int) ≤ b.tailp-b.readp) :
    Holds (escapeIacChars b) b.writep (stuff IAC b.content) ∧ Valid (escapeIacChars b) ∧
      Block.Writes (fun i => 0 ≤ i ∧ i < b.size) b.mem (escapeIacChars b).mem := by
  have holds := valid.holds
  have origin := valid.origin
  have tail := valid.tail
  have stops := holds.stops
  have length := stuff_length IAC b.content
  obtain ⟨escaped,writes,capacity⟩ := escapeIacChars_holds holds
  refine ⟨escaped,escaped.valid origin ?_,writes.mono ?_⟩
  · rw [capacity]
    omega
  · intro i inside
    omega

theorem escapeIacChars_rewound {b : Buffer} (invariant : Invariant b)
    (room : (b.content.count IAC : Int) ≤ b.tailp-b.readp) : Invariant (escapeIacChars b) := by
  obtain ⟨escaped,valid,_⟩ := escapeIacChars_valid invariant.toValid room
  apply escaped.invariant invariant.origin
  · have bounded := valid.bounded
    have tail := valid.tail
    have stops := escaped.stops
    omega
  · intro empty
    have counted := invariant.toValid.holds.counted
    rw [(stuff_eq_nil _ _).mp empty] at counted
    exact (invariant.rewound counted).2

theorem processTelnetOptions_stuffed {g : Gateway} {start : Int} {d : List UInt8}
    (holds : Holds g.buff start (stuff IAC d)) :
    (processTelnetOptions g).buff.content = d ∧ (processTelnetOptions g).session = g.session := by
  obtain ⟨units,encoded,decoded,passive⟩ := stuffed_units d
  rw [encoded] at holds
  have reading : Reading {g with iac := g.buff.writep, size := g.buff.nbuffered} []
      (units.flatMap TelnetUnit.encode) :=
    ⟨⟨start,holds,fun _ => by simpa using holds.starts⟩,by simpa using holds.counted⟩
  obtain ⟨content,same⟩ := scanNext_rest passive reading
  rw [List.nil_append,← decoded] at content
  rw [processTelnetOptions_eq]
  exact ⟨content,same⟩

/-- As long as the doubled IACs fit behind the content, the escape pass leaves the content
with every IAC doubled where it was; and decoding such a content, in whatever buffer and
state of the session, gives the original back without an answer or a change. -/
theorem escape_roundTrip (d : List UInt8) (b : Buffer) (valid : Valid b) (content : b.content = d)
    (room : (d.count IAC : Int) ≤ b.tailp-b.readp) :
    ((escapeIacChars b).content = stuff IAC d ∧ (escapeIacChars b).writep = b.writep ∧
      Valid (escapeIacChars b) ∧ (Invariant b → Invariant (escapeIacChars b)) ∧
      Block.Writes (fun i => 0 ≤ i ∧ i < b.size) b.mem (escapeIacChars b).mem) ∧
    ∀ g : Gateway, Valid g.buff → g.buff.content = stuff IAC d →
      (processTelnetOptions g).buff.content = d ∧ (processTelnetOptions g).session = g.session := by
  subst content
  obtain ⟨escaped,whole,writes⟩ := escapeIacChars_valid valid room
  refine ⟨⟨escaped.content_eq,escaped.starts,whole,fun invariant =>
    escapeIacChars_rewound invariant room,writes⟩,?_⟩
  intro g stands stuffed
  have holds := stands.holds
  rw [stuffed] at holds
  exact processTelnetOptions_stuffed holds

theorem escape_roundTrip_sixteen :
    (escapeIacChars (readFromFdToBuffer (.bytes [IAC,65,IAC,IAC]) (bfmalloc 16)).buff).content =
      [IAC,IAC,65,IAC,IAC,IAC,IAC] ∧
    (processTelnetOptions ⟨escapeIacChars (readFromFdToBuffer (.bytes [IAC,65,IAC,IAC])
      (bfmalloc 16)).buff,processStart ⟨⟨0,0,0xBD,0⟩,[]⟩⟩).buff.content = [IAC,65,IAC,IAC] := by
  have valid : Valid (readFromFdToBuffer (.bytes [IAC,65,IAC,IAC]) (bfmalloc 16)).buff :=
    ⟨by decide,by decide,by decide,by decide,by decide⟩
  obtain ⟨⟨escaped,_,whole,_⟩,decoded⟩ := escape_roundTrip [IAC,65,IAC,IAC]
    (readFromFdToBuffer (.bytes [IAC,65,IAC,IAC]) (bfmalloc 16)).buff valid (by decide) (by decide)
  exact ⟨escaped,(decoded ⟨_,_⟩ whole escaped).1⟩

end SerialIp
