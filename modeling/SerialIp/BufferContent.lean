import SerialIp.Buffer

/-! What every buffer operation does to the active portion. `Holds` ties the
pointers, the counter and the stored bytes of a BUFFER to one byte string; each
operation gets one lemma in its terms, and callers use these lemmas only. -/
namespace SerialIp.Buffer
open Library

/-- The pointer discipline of a BUFFER, `buffp` being 0. -/
structure Valid (b : Buffer) : Prop where
  origin : 0 ≤ b.writep
  ordered : b.writep ≤ b.readp
  bounded : b.readp ≤ b.tailp
  tail : b.tailp = b.size
  counted : b.nbuffered = b.readp-b.writep

structure Invariant (b : Buffer) : Prop extends Valid b where
  rewound : b.nbuffered = 0 → b.readp = 0 ∧ b.writep = 0

def content (b : Buffer) : List UInt8 := b.mem.read b.writep (b.readp-b.writep).toNat

/-- `b` stores exactly `xs` from `start` on; the capacity is not mentioned, so
that the relation also describes a buffer that has run over. -/
structure Holds (b : Buffer) (start : Int) (xs : List UInt8) : Prop where
  tail : b.tailp = b.size
  starts : b.writep = start
  stops : b.readp = start+xs.length
  counted : b.nbuffered = xs.length
  stored : b.mem.read start xs.length = xs

theorem Holds.content_eq {b : Buffer} {start : Int} {xs : List UInt8} (holds : Holds b start xs) :
    b.content = xs := by
  have size : (b.readp-b.writep).toNat = xs.length := by
    rw [holds.starts,holds.stops]
    omega
  rw [content,size,holds.starts,holds.stored]

theorem Valid.holds {b : Buffer} (valid : Valid b) : Holds b b.writep b.content := by
  obtain ⟨origin,ordered,bounded,tail,counted⟩ := valid
  refine ⟨tail,rfl,?_,?_,?_⟩
  · simp only [content,Block.read_length]
    omega
  · simp only [content,Block.read_length]
    omega
  · simp only [content,Block.read_length]

theorem Holds.valid {b : Buffer} {start : Int} {xs : List UInt8} (holds : Holds b start xs)
    (origin : 0 ≤ start) (bounded : start+xs.length ≤ b.size) : Valid b := by
  obtain ⟨tail,starts,stops,counted,_⟩ := holds
  exact ⟨by omega,by omega,by omega,tail,by omega⟩

theorem Holds.invariant {b : Buffer} {start : Int} {xs : List UInt8} (holds : Holds b start xs)
    (origin : 0 ≤ start) (bounded : start+xs.length ≤ b.size)
    (rewound : xs = [] → start = 0) : Invariant b := by
  refine ⟨holds.valid origin bounded,?_⟩
  intro empty
  have none : xs = [] := by
    apply List.length_eq_zero_iff.mp
    have counted := holds.counted
    omega
  have zero := rewound none
  rw [holds.stops,holds.starts,none,zero]
  exact ⟨rfl,rfl⟩

theorem Holds.suffix {b : Buffer} {start : Int} {xs ys : List UInt8}
    (holds : Holds b start (xs ++ ys)) : b.mem.read (start+xs.length) ys.length = ys :=
  (Block.read_split b.mem holds.stored).2

theorem Holds.search_none {b : Buffer} {start : Int} {xs ys : List UInt8} {ch : UInt8}
    (holds : Holds b start (xs ++ ys)) (absent : ch ∉ ys) :
    mystrchr b.mem (start+xs.length) ch ys.length = none := by
  apply mystrchr_none
  rw [Int.toNat_natCast,holds.suffix]
  exact absent

theorem Holds.search_first {b : Buffer} {start : Int} {xs before after : List UInt8} {ch : UInt8}
    (holds : Holds b start (xs ++ (before ++ ch::after))) (absent : ch ∉ before) :
    mystrchr b.mem (start+xs.length) ch (before ++ ch::after).length =
      some (start+xs.length+before.length) := by
  have content := holds.suffix
  rw [← Int.toNat_natCast (before ++ ch::after).length] at content
  exact mystrchr_first content absent

@[simp] theorem bfinit_size (b : Buffer) : (bfinit b).size = b.size := rfl

@[simp] theorem bufferReadpointerPosition_size (b : Buffer) (nbytes : Int) :
    (bufferReadpointerPosition b nbytes).size = b.size := rfl

@[simp] theorem bufferWritepointerPosition_size (b : Buffer) (nbytes : Int) :
    (bufferWritepointerPosition b nbytes).size = b.size := by
  unfold bufferWritepointerPosition
  dsimp only
  split <;> rfl

theorem bfinit_holds (b : Buffer) : Holds (bfinit b) 0 [] :=
  ⟨rfl,rfl,rfl,rfl,rfl⟩

theorem bfmalloc_holds (size : Int) : Holds (bfmalloc size) 0 [] := bfinit_holds _

theorem bfmalloc_size {size : Int} (positive : 0 < size) : (bfmalloc size).size = size := by
  simp [bfmalloc,positive]

theorem append_holds {b : Buffer} {start : Int} {xs : List UInt8} (holds : Holds b start xs)
    (ys : List UInt8) : Holds (bufferReadpointerPosition
      {b with mem := b.mem.copy b.readp ys} ys.length) start (xs ++ ys) := by
  obtain ⟨tail,starts,stops,counted,stored⟩ := holds
  refine ⟨tail,starts,?_,?_,?_⟩
  · simp only [bufferReadpointerPosition,List.length_append]
    omega
  · simp only [bufferReadpointerPosition,List.length_append]
    omega
  · simp only [bufferReadpointerPosition,List.length_append,Block.read_append,stops,
      Block.read_copy]
    congr 1
    conv_rhs => rw [← stored]
    apply Block.read_eq
    intro k bound
    exact Block.copy_outside _ _ _ _ (by omega)

theorem consume_holds {b : Buffer} {start : Int} {xs ys : List UInt8}
    (holds : Holds b start (xs ++ ys)) : Holds (bufferWritepointerPosition b xs.length)
      (if ys = [] then 0 else start+xs.length) ys := by
  obtain ⟨tail,starts,stops,counted,stored⟩ := holds
  have split := Block.read_split b.mem stored
  simp only [List.length_append] at stops counted
  by_cases rest : ys = []
  · subst ys
    simp only [List.length_nil] at counted
    simp only [bufferWritepointerPosition,counted,if_true]
    rw [if_neg (by omega)]
    exact bfinit_holds _
  · have positive : 0 < ys.length := List.length_pos_iff.mpr rest
    rw [if_neg rest]
    simp only [bufferWritepointerPosition,counted]
    rw [if_pos (by omega)]
    refine ⟨tail,?_,?_,?_,split.2⟩
    · dsimp only
      omega
    · dsimp only
      omega
    · dsimp only
      omega

theorem calNumbytesToRead_eq {b : Buffer} {start : Int} {xs : List UInt8}
    (holds : Holds b start xs) :
    calNumbytesToRead b = if xs = [] then b.size else b.size-(start+xs.length) := by
  obtain ⟨tail,starts,stops,counted,_⟩ := holds
  unfold calNumbytesToRead
  by_cases empty : xs = []
  · subst xs
    simp only [List.length_nil,Nat.cast_zero] at stops counted
    rw [if_neg (by omega),if_neg (by omega),if_pos counted,if_pos rfl]
  · have positive : 0 < xs.length := List.length_pos_iff.mpr empty
    rw [if_pos (by omega),if_neg empty,tail,stops]

theorem calNumbytesToWrite_eq {b : Buffer} {start : Int} {xs : List UInt8}
    (holds : Holds b start xs) : calNumbytesToWrite b = xs.length := by
  obtain ⟨tail,starts,stops,counted,_⟩ := holds
  unfold calNumbytesToWrite
  by_cases empty : xs = []
  · subst xs
    simp only [List.length_nil,Nat.cast_zero] at stops counted ⊢
    rw [if_neg (by omega),if_neg (by omega),if_pos counted]
  · have positive : 0 < xs.length := List.length_pos_iff.mpr empty
    rw [if_pos (by omega)]
    omega

/-- One read(): what it delivered is appended, and nothing else happens to the
content. A delivery never exceeds what was asked for. -/
theorem readFromFdToBuffer_holds {b : Buffer} {start : Int} {xs : List UInt8}
    (holds : Holds b start xs) (reply : ReadReply) :
    Holds (readFromFdToBuffer reply b).buff start (xs ++ (readFromFdToBuffer reply b).moved) := by
  unfold readFromFdToBuffer
  dsimp only
  split_ifs with full
  · simpa using holds
  · cases reply with
    | failed | interrupted => simpa using holds
    | bytes data =>
      dsimp only
      split_ifs with eof
      · simpa using (⟨holds.tail,holds.starts,holds.stops,holds.counted,holds.stored⟩ :
          Holds {b with eof := true} start xs)
      · exact append_holds holds _

@[simp] theorem readFromFdToBuffer_size (b : Buffer) (reply : ReadReply) :
    (readFromFdToBuffer reply b).buff.size = b.size := by
  unfold readFromFdToBuffer
  dsimp only
  split_ifs
  · rfl
  · cases reply with
    | failed | interrupted => rfl
    | bytes data =>
      dsimp only
      split_ifs <;> rfl

theorem readFromFdToBuffer_moved (b : Buffer) (reply : ReadReply) :
    (readFromFdToBuffer reply b).moved = [] ∨
      ((readFromFdToBuffer reply b).moved.length : Int) ≤ calNumbytesToRead b := by
  unfold readFromFdToBuffer
  dsimp only
  split_ifs with full
  · exact Or.inl rfl
  · cases reply with
    | failed | interrupted => exact Or.inl rfl
    | bytes data =>
      dsimp only
      split_ifs with eof
      · exact Or.inl rfl
      · right
        simp only [List.length_take]
        omega

theorem readFromFdToBuffer_ret (b : Buffer) (reply : ReadReply) :
    (0 < (readFromFdToBuffer reply b).ret ↔ (readFromFdToBuffer reply b).moved ≠ []) := by
  unfold readFromFdToBuffer
  dsimp only
  split_ifs with full
  · simp [not_lt.mpr full]
  · cases reply with
    | failed | interrupted => simp
    | bytes data =>
      dsimp only
      split_ifs with eof
      · simp
      · simp [List.length_pos_iff]

theorem readFromFdToBuffer_takes {b : Buffer} {data : List UInt8}
    (within : (data.length : Int) ≤ calNumbytesToRead b) :
    (readFromFdToBuffer (.bytes data) b).moved = data := by
  have whole : data.take (calNumbytesToRead b).toNat = data := List.take_of_length_le (by omega)
  unfold readFromFdToBuffer
  simp only [whole]
  split_ifs with full empty
  · exact (List.length_eq_zero_iff.mp (by omega)).symm
  · exact empty.symm
  · rfl

theorem readFromFdToBuffer_writes {b : Buffer} {start : Int} {xs : List UInt8}
    (holds : Holds b start xs) (reply : ReadReply) :
    Block.Writes (fun i => start+xs.length ≤ i ∧
      i < start+(xs ++ (readFromFdToBuffer reply b).moved).length) b.mem
      (readFromFdToBuffer reply b).buff.mem := by
  unfold readFromFdToBuffer
  dsimp only
  split_ifs with full
  · exact Block.Writes.refl _ _
  · cases reply with
    | failed | interrupted => exact Block.Writes.refl _ _
    | bytes data =>
      dsimp only
      split_ifs with eof
      · exact Block.Writes.refl _ _
      · apply (Block.copy_writes _ _ _).mono
        intro i inside
        have stops := holds.stops
        simp only [List.length_append]
        omega

theorem writeFromBufferToFd_holds {b : Buffer} {start : Int} {xs : List UInt8}
    (holds : Holds b start xs) (reply : WriteReply) :
    ∃ rest, xs = (writeFromBufferToFd reply b).moved ++ rest ∧
      (((writeFromBufferToFd reply b).moved = [] ∧ (writeFromBufferToFd reply b).buff = b) ∨
        Holds (writeFromBufferToFd reply b).buff
          (if rest = [] then 0 else start+(writeFromBufferToFd reply b).moved.length) rest) := by
  have offered := calNumbytesToWrite_eq holds
  unfold writeFromBufferToFd
  dsimp only
  split_ifs with empty refused
  · exact ⟨xs,rfl,Or.inl ⟨rfl,rfl⟩⟩
  · exact ⟨xs,rfl,Or.inl ⟨rfl,rfl⟩⟩
  · obtain ⟨n,taken⟩ : ∃ n : Nat, (reply.taken (calNumbytesToWrite b)) = n :=
      ⟨_,(Int.toNat_of_nonneg (by omega)).symm⟩
    have bound : n ≤ xs.length := by
      have least : reply.taken (calNumbytesToWrite b) ≤ calNumbytesToWrite b := by
        cases reply <;> simp only [WriteReply.taken] <;> omega
      omega
    have whole : Holds b start (xs.take n ++ xs.drop n) := by
      rw [List.take_append_drop]
      exact holds
    have size : (xs.take n).length = n := by
      rw [List.length_take,Nat.min_eq_left bound]
    have front := (Block.read_split b.mem whole.stored).1
    rw [size,← holds.starts] at front
    have consumed := consume_holds whole
    simp only [taken,Int.toNat_natCast,front]
    refine ⟨xs.drop n,(List.take_append_drop n xs).symm,Or.inr ?_⟩
    rw [size] at consumed ⊢
    exact consumed

theorem writeFromBufferToFd_moved {b : Buffer} {start : Int} {xs : List UInt8} (holds : Holds b start xs)
    (reply : WriteReply) :
    (writeFromBufferToFd reply b).moved = xs.take (reply.taken xs.length).toNat := by
  have offered := calNumbytesToWrite_eq holds
  obtain ⟨rest,split,_⟩ := writeFromBufferToFd_holds holds reply
  unfold writeFromBufferToFd at split ⊢
  dsimp only at split ⊢
  rw [offered] at split ⊢
  split_ifs at split ⊢ with empty refused
  · have none : xs = [] := List.length_eq_zero_iff.mp (by omega)
    simp [none]
  · rw [Int.toNat_of_nonpos refused,List.take_zero]
  · have front := congrArg (List.take (reply.taken xs.length).toNat) split
    rw [List.take_left' (Block.read_length ..)] at front
    exact front.symm

theorem writeFromBufferToFd_all {b : Buffer} {start : Int} {xs : List UInt8}
    (holds : Holds b start xs) :
    (writeFromBufferToFd .all b).moved = xs ∧ (writeFromBufferToFd .all b).ret = xs.length ∧
      Holds (writeFromBufferToFd .all b).buff (if xs = [] then start else 0) [] := by
  have offered := calNumbytesToWrite_eq holds
  unfold writeFromBufferToFd
  simp only [offered,WriteReply.taken]
  by_cases empty : xs = []
  · subst xs
    exact ⟨rfl,rfl,holds⟩
  · have positive : 0 < xs.length := List.length_pos_iff.mpr empty
    rw [if_neg (by omega),if_neg (by omega),if_neg empty]
    have whole : Holds b start (xs ++ []) := by
      rw [List.append_nil]
      exact holds
    have consumed := consume_holds whole
    rw [if_pos rfl] at consumed
    refine ⟨?_,rfl,consumed⟩
    simp only [Int.toNat_natCast,holds.starts,holds.stored]

@[simp] theorem writeFromBufferToFd_size (b : Buffer) (reply : WriteReply) :
    (writeFromBufferToFd reply b).buff.size = b.size := by
  unfold writeFromBufferToFd
  dsimp only
  split_ifs <;> simp

theorem bfinsch_holds {b : Buffer} {start : Int} {xs ys : List UInt8}
    (holds : Holds b start (xs ++ ys)) (ch : UInt8) :
    Holds (bfinsch b (start+xs.length) ch).2 start (xs ++ ch::ys) := by
  obtain ⟨tail,starts,stops,counted,stored⟩ := holds
  obtain ⟨left,right⟩ := Block.read_split b.mem stored
  simp only [List.length_append] at stops counted
  have gap : (b.readp-(start+xs.length)).toNat = ys.length := by omega
  unfold bfinsch
  rw [if_pos (by omega)]
  refine ⟨tail,starts,?_,?_,?_⟩
  · simp only [bufferReadpointerPosition,List.length_append,List.length_cons]
    omega
  · simp only [bufferReadpointerPosition,List.length_append,List.length_cons]
    omega
  · simp only [bufferReadpointerPosition,gap,List.length_append,List.length_cons,
      Block.read_append,Block.read,Block.store_same]
    congr 1
    · conv_rhs => rw [← left]
      apply Block.read_eq
      intro k bound
      rw [Block.store_other _ _ (by omega),Block.shiftRight_cell,if_neg (by omega)]
    · congr 1
      conv_rhs => rw [← right]
      apply Block.read_eq
      intro k bound
      rw [Block.store_other _ _ (by omega),Block.shiftRight_cell,if_pos (by omega)]
      congr 1
      omega

theorem bfinsch_writes {b : Buffer} {start : Int} {xs ys : List UInt8}
    (holds : Holds b start (xs ++ ys)) (ch : UInt8) :
    Block.Writes (fun i => start ≤ i ∧ i ≤ start+(xs ++ ys).length) b.mem
      (bfinsch b (start+xs.length) ch).2.mem := by
  have stops := holds.stops
  have starts := holds.starts
  have size : (xs ++ ys).length = xs.length+ys.length := List.length_append
  unfold bfinsch
  rw [if_pos (by omega)]
  apply Block.Writes.trans ((Block.shiftRight_writes _ _ _).mono _) ((Block.store_writes _ _ _).mono _)
  · intro i inside
    omega
  · intro i same
    omega

theorem bfinsch_size (b : Buffer) (ptr : Int) (ch : UInt8) : (bfinsch b ptr ch).2.size = b.size := by
  unfold bfinsch
  split_ifs <;> rfl

theorem bfrmstr_part {b : Buffer} {start : Int} {xs ys zs : List UInt8}
    (holds : Holds b start (xs ++ (ys ++ zs))) (part : ys.length < (xs ++ (ys ++ zs)).length) :
    (bfrmstr b (start+xs.length) ys.length).1 = ys.length ∧
      Holds (bfrmstr b (start+xs.length) ys.length).2 start (xs ++ zs) := by
  obtain ⟨tail,starts,stops,counted,stored⟩ := holds
  have closed := Block.read_shiftLeft b.mem stored
  simp only [List.length_append] at stops counted part
  have gap : (b.readp-(start+xs.length+ys.length)).toNat = zs.length := by omega
  unfold bfrmstr
  rw [if_pos (by omega),if_neg (by omega)]
  dsimp only
  rw [if_neg (by omega),gap]
  refine ⟨rfl,tail,starts,?_,?_,closed⟩
  · simp only [bufferReadpointerPosition,List.length_append]
    omega
  · simp only [bufferReadpointerPosition,List.length_append]
    omega

/-- A removal of at least as many bytes as the buffer holds rewinds it, wherever
in the content it begins. -/
theorem bfrmstr_all {b : Buffer} {start ptr nbytes : Int} {xs : List UInt8}
    (holds : Holds b start xs) (inside : start ≤ ptr ∧ ptr ≤ start+xs.length)
    (all : (xs.length : Int) ≤ nbytes) : bfrmstr b ptr nbytes = (nbytes,bfinit b) := by
  have starts := holds.starts
  have stops := holds.stops
  have counted := holds.counted
  unfold bfrmstr
  rw [if_pos (by omega),if_pos (by omega)]

theorem bfrmstr_size (b : Buffer) (ptr nbytes : Int) : (bfrmstr b ptr nbytes).2.size = b.size := by
  unfold bfrmstr
  split_ifs <;> rfl

def appended (b : Buffer) (nbytes : Int) : Int :=
  if nbytes > b.size-b.nbuffered then b.size-b.nbuffered else nbytes

theorem bfstrncat_holds {b : Buffer} {start : Int} {xs : List UInt8} (holds : Holds b start xs)
    (command : List UInt8) {nbytes : Int} (whole : nbytes ≤ command.length)
    (room : 0 ≤ appended b nbytes) :
    Holds (bfstrncat b command nbytes).2 start (xs ++ command.take (appended b nbytes).toNat) := by
  have least : appended b nbytes ≤ nbytes := by
    unfold appended
    split_ifs <;> omega
  have size : ((command.take (appended b nbytes).toNat).length : Int) = appended b nbytes := by
    rw [List.length_take]
    omega
  have grown := append_holds holds (command.take (appended b nbytes).toNat)
  rw [size] at grown
  exact grown

@[simp] theorem bfstrncat_size (b : Buffer) (command : List UInt8) (nbytes : Int) :
    (bfstrncat b command nbytes).2.size = b.size := rfl

theorem bfstrchrLoop_eq (m : Block UInt8) (ch : UInt8) (s : Int) (n : Nat) :
    bfstrchrLoop m ch s n = (mystrchrLoop m ch s n).getD (s+n) := by
  induction n generalizing s with
  | zero => exact (add_zero s).symm
  | succ n ih =>
    rw [bfstrchrLoop,mystrchrLoop]
    by_cases here : m.cell s = ch
    · rw [if_neg (not_not.mpr here),if_pos here]
      rfl
    · rw [if_pos here,if_neg here,ih,add_assoc,Nat.cast_succ,add_comm (n : Int)]

/-- The search of a BUFFER is that of mystrchr, followed by a look at one more byte. -/
theorem bfstrchr_eq {b : Buffer} (counted : b.nbuffered = b.readp-b.writep)
    (ordered : b.writep ≤ b.readp) (ch : UInt8) :
    bfstrchr b ch = (mystrchr b.mem b.writep ch b.nbuffered).or
      (if b.mem.cell b.readp = ch then some b.readp else none) := by
  have stop : b.writep+b.nbuffered.toNat = b.readp := by omega
  unfold bfstrchr
  rw [bfstrchrLoop_eq,stop]
  change _ = (mystrchrLoop b.mem ch b.writep b.nbuffered.toNat).or _
  cases found : mystrchr b.mem b.writep ch b.nbuffered with
  | none =>
    change mystrchrLoop b.mem ch b.writep b.nbuffered.toNat = none at found
    rw [found]
    rfl
  | some i =>
    have here := (mystrchr_bounds found).2.2
    change mystrchrLoop b.mem ch b.writep b.nbuffered.toNat = some i at found
    rw [found]
    exact if_pos here

theorem Valid.search {b : Buffer} (valid : Valid b) (ch : UInt8) :
    mystrchr b.mem b.writep ch b.nbuffered = (b.content.idxOf? ch).map fun k : Nat => b.writep+k := by
  rw [mystrchr_eq,valid.counted]
  rfl

theorem bfstrchr_none {b : Buffer} {start : Int} {xs : List UInt8} {ch : UInt8}
    (holds : Holds b start xs) (missing : bfstrchr b ch = none) : ch ∉ xs := by
  have stops := holds.stops
  have counted := holds.counted
  have starts := holds.starts
  rw [bfstrchr_eq (by omega) (by omega),starts,counted] at missing
  have absent := mystrchr_missing (Option.or_eq_none_iff.mp missing).1
  rw [Int.toNat_natCast,holds.stored] at absent
  exact absent

end SerialIp.Buffer
