import SerialIp.BufferContent
import SerialIp.Library.Channel
import SerialIp.Library.Machine

/-! Whole runs of one BUFFER. Under reads and writes alone it refines a lossless
first-in first-out channel; under all its operations the representation
invariant holds exactly as long as every append fits behind `readp`. -/
namespace SerialIp.Buffer
open Library

theorem Invariant.read {b : Buffer} (invariant : Invariant b) (reply : ReadReply) :
    Invariant (readFromFdToBuffer reply b).buff ∧
      (readFromFdToBuffer reply b).buff.content =
        b.content ++ (readFromFdToBuffer reply b).moved := by
  have holds := invariant.toValid.holds
  have after := readFromFdToBuffer_holds holds reply
  have asked := calNumbytesToRead_eq holds
  have origin := invariant.origin
  have room : b.writep+b.content.length ≤ b.size := by
    have stops := holds.stops
    have bounded := invariant.bounded
    have tail := invariant.tail
    omega
  refine ⟨?_,after.content_eq⟩
  by_cases quiet : (readFromFdToBuffer reply b).moved = []
  · apply after.invariant origin
    · simpa [quiet] using room
    · intro none
      simp only [quiet,List.append_nil] at none
      have counted := holds.counted
      rw [none] at counted
      exact (invariant.rewound counted).2
  · have bound := (readFromFdToBuffer_moved b reply).resolve_left quiet
    apply after.invariant origin
    · rw [readFromFdToBuffer_size,List.length_append,Nat.cast_add]
      rw [asked] at bound
      split_ifs at bound with empty
      · have counted := holds.counted
        rw [empty] at counted
        have zero := (invariant.rewound counted).2
        simp only [empty,List.length_nil] at room ⊢
        omega
      · omega
    · intro none
      exact absurd (List.append_eq_nil_iff.mp none).2 quiet

theorem Invariant.asks {b : Buffer} (invariant : Invariant b) :
    b.readp+calNumbytesToRead b ≤ b.tailp := by
  have holds := invariant.toValid.holds
  have tail := invariant.tail
  have stops := holds.stops
  rw [calNumbytesToRead_eq holds]
  split_ifs with empty
  · have counted := holds.counted
    rw [empty] at counted
    have zero := (invariant.rewound counted).1
    omega
  · omega

theorem Invariant.write {b : Buffer} (invariant : Invariant b) (reply : WriteReply) :
    Invariant (writeFromBufferToFd reply b).buff ∧
      b.content = (writeFromBufferToFd reply b).moved ++
        (writeFromBufferToFd reply b).buff.content := by
  have holds := invariant.toValid.holds
  have origin := invariant.origin
  have bounded := invariant.bounded
  have tail := invariant.tail
  have stops := holds.stops
  obtain ⟨rest,split,⟨none,same⟩ | after⟩ := writeFromBufferToFd_holds holds reply
  · rw [none,same]
    exact ⟨invariant,rfl⟩
  · rw [after.content_eq]
    refine ⟨?_,split⟩
    have size := congrArg List.length split
    rw [List.length_append] at size
    apply after.invariant
    · split_ifs <;> omega
    · rw [writeFromBufferToFd_size]
      split_ifs with empty
      · simp only [empty,List.length_nil]
        omega
      · omega
    · intro empty
      rw [if_pos empty]

structure Traffic where
  buff : Buffer
  delivered : List UInt8
  accepted : List UInt8

inductive Move
  | read (reply : ReadReply)
  | write (reply : WriteReply)

def Traffic.start (size : Int) : Traffic := ⟨bfmalloc size,[],[]⟩

def Traffic.step (t : Traffic) : Move → Traffic
  | .read reply =>
    let result := readFromFdToBuffer reply t.buff
    {t with buff := result.buff, delivered := t.delivered ++ result.moved}
  | .write reply =>
    let result := writeFromBufferToFd reply t.buff
    {t with buff := result.buff, accepted := t.accepted ++ result.moved}

theorem bfmalloc_invariant (size : Int) : Invariant (bfmalloc size) := by
  apply (bfmalloc_holds size).invariant le_rfl
  · have positive : 0 < (bfmalloc size).size := by
      simp only [bfmalloc,bfinit_size]
      split_ifs with given
      · exact given
      · decide
    simpa using positive.le
  · exact fun _ => rfl

theorem Invariant.init {b : Buffer} (invariant : Invariant b) : Invariant (bfinit b) := by
  have origin := invariant.origin
  have ordered := invariant.ordered
  have bounded := invariant.bounded
  have tail := invariant.tail
  apply (bfinit_holds b).invariant le_rfl
  · simp only [List.length_nil,bfinit_size]
    omega
  · exact fun _ => rfl

/-- An append keeps the invariant exactly when its bytes fit behind `readp`; the
bound the code takes, `size-nbuffered`, also counts the room drained in front. -/
theorem Invariant.append_iff {b : Buffer} (invariant : Invariant b) (command : List UInt8)
    {nbytes : Int} (given : 0 ≤ nbytes) :
    Invariant (bfstrncat b command nbytes).2 ↔ appended b nbytes ≤ b.tailp-b.readp := by
  obtain ⟨⟨origin,ordered,bounded,tail,counted⟩,rewound⟩ := invariant
  have amount : 0 ≤ appended b nbytes := by
    unfold appended
    split_ifs <;> omega
  change Invariant (bufferReadpointerPosition
    {b with mem := b.mem.copy b.readp (command.take (appended b nbytes).toNat)}
    (appended b nbytes)) ↔ _
  constructor
  · intro after
    have inside := after.bounded
    simp only [bufferReadpointerPosition] at inside
    omega
  · intro fits
    refine ⟨⟨origin,?_,?_,tail,?_⟩,?_⟩
    all_goals simp only [bufferReadpointerPosition]
    · omega
    · omega
    · omega
    · intro none
      obtain ⟨read,write⟩ := rewound (by omega)
      exact ⟨by omega,write⟩

theorem Invariant.append {b : Buffer} (invariant : Invariant b) {command : List UInt8}
    (room : b.readp+command.length ≤ b.tailp) :
    Invariant (bfstrncat b command command.length).2 ∧
      (bfstrncat b command command.length).2.content = b.content ++ command := by
  have origin := invariant.origin
  have tail := invariant.tail
  have counted := invariant.counted
  have whole : appended b command.length = command.length := if_neg (by omega)
  have holds := bfstrncat_holds invariant.toValid.holds command le_rfl (by omega)
  rw [whole,Int.toNat_natCast,List.take_length] at holds
  refine ⟨(invariant.append_iff command (Int.natCast_nonneg _)).mpr ?_,holds.content_eq⟩
  rw [whole]
  omega

theorem Invariant.remove {b : Buffer} (invariant : Invariant b) {ptr nbytes : Int}
    (given : 0 ≤ nbytes) : Invariant (bfrmstr b ptr nbytes).2 := by
  unfold bfrmstr
  dsimp only
  split_ifs with inside all clamped
  · exact invariant.init
  all_goals obtain ⟨⟨origin,ordered,bounded,tail,counted⟩,rewound⟩ := invariant
  · refine ⟨⟨origin,?_,?_,tail,?_⟩,?_⟩
    all_goals simp only [bufferReadpointerPosition]
    all_goals omega
  · refine ⟨⟨origin,?_,?_,tail,?_⟩,?_⟩
    all_goals simp only [bufferReadpointerPosition]
    all_goals omega
  · exact ⟨⟨origin,ordered,bounded,tail,counted⟩,rewound⟩

inductive Operation
  | bfmalloc (size : Int)
  | bfinit
  | readFromFdToBuffer (reply : ReadReply)
  | writeFromBufferToFd (reply : WriteReply)
  | bfstrcat (command : List UInt8)
  | bfstrncat (command : List UInt8) (nbytes : Int)
  | bfrmstr (ptr nbytes : Int)

namespace Operation

def apply (b : Buffer) : Operation → Buffer
  | .bfmalloc size => Buffer.bfmalloc size
  | .bfinit => Buffer.bfinit b
  | .readFromFdToBuffer reply => (Buffer.readFromFdToBuffer reply b).buff
  | .writeFromBufferToFd reply => (Buffer.writeFromBufferToFd reply b).buff
  | .bfstrcat command => (Buffer.bfstrcat b command).2
  | .bfstrncat command nbytes => (Buffer.bfstrncat b command nbytes).2
  | .bfrmstr ptr nbytes => (Buffer.bfrmstr b ptr nbytes).2

def Legal (b : Buffer) : Operation → Prop
  | .bfmalloc size => 0 < size
  | .bfstrncat _ nbytes => 0 ≤ nbytes
  | .bfrmstr ptr nbytes => b.writep ≤ ptr ∧ ptr ≤ b.readp ∧ 0 ≤ nbytes
  | _ => True

def Fits (b : Buffer) : Operation → Prop
  | .bfstrcat command => appended b command.length ≤ b.tailp-b.readp
  | .bfstrncat _ nbytes => appended b nbytes ≤ b.tailp-b.readp
  | _ => True

theorem invariant_iff_fits (b : Buffer) (operation : Operation) (invariant : Invariant b)
    (legal : Legal b operation) : Invariant (apply b operation) ↔ Fits b operation := by
  cases operation with
  | bfmalloc size => exact iff_of_true (bfmalloc_invariant size) trivial
  | bfinit => exact iff_of_true invariant.init trivial
  | readFromFdToBuffer reply => exact iff_of_true (invariant.read reply).1 trivial
  | writeFromBufferToFd reply => exact iff_of_true (invariant.write reply).1 trivial
  | bfstrcat command => exact invariant.append_iff command (Int.natCast_nonneg _)
  | bfstrncat command nbytes => exact invariant.append_iff command legal
  | bfrmstr ptr nbytes => exact iff_of_true (invariant.remove legal.2.2) trivial

end Operation
open Operation

/-- The representation invariant holds in every state of a run exactly when every
append of the run fits. -/
theorem invariant_iff_appends_fit (size : Int) (operations : List Operation)
    (legal : Machine.Along apply Legal (bfmalloc size) operations) :
    Machine.Throughout apply Invariant (bfmalloc size) operations ↔
      Machine.Along apply Fits (bfmalloc size) operations :=
  Machine.throughout_iff_along (fun _ => True) Invariant Legal Fits (fun _ _ _ _ => trivial)
    (fun b operation _ => Operation.invariant_iff_fits b operation) trivial
    (bfmalloc_invariant size) legal

/-- Eight bytes in, five out, two in: the last append still fits into ten. -/
theorem invariant_iff_appends_fit_ten :
    Machine.Throughout apply Invariant (bfmalloc 10)
      [.bfstrcat [1,2,3,4,5,6,7,8],.writeFromBufferToFd (.upTo 5),.bfstrcat [9,9]] ↔
    Machine.Along apply Fits (bfmalloc 10)
      [.bfstrcat [1,2,3,4,5,6,7,8],.writeFromBufferToFd (.upTo 5),.bfstrcat [9,9]] :=
  invariant_iff_appends_fit 10 _ ⟨trivial,trivial,trivial,trivial⟩

/-- With seven bytes in the place of the two, `readp` passes `tailp` by five. -/
theorem append_after_drain_overruns :
    ¬ ∀ (size : Int) (operations : List Operation), 0 < size →
      Machine.Along apply Legal (bfmalloc size) operations →
      Machine.Throughout apply Invariant (bfmalloc size) operations := by
  intro always
  have kept := always 10 [.bfstrcat [1,2,3,4,5,6,7,8],.writeFromBufferToFd (.upTo 5),
    .bfstrcat [9,9,9,9,9,9,9]] (by decide) ⟨trivial,trivial,trivial,trivial⟩
  have last := (Machine.throughout_iff_prefixes apply Invariant _ _).mp kept _ List.prefix_rfl
  exact absurd last.bounded (by decide)

end SerialIp.Buffer
