import SerialIp.TelnetUnits

/-! What reaches the serial port: complete commands are decoded in order, and
cutting a stream between its units does not matter. -/
namespace SerialIp
open Library Buffer

/-- A valid buffer of units without suboptions: data and undoubled IACs stay,
every negotiation command is answered once, in order, and nothing else is done. -/
theorem processTelnetOptions_units (g : Gateway) (units : List TelnetUnit) (valid : Valid g.buff)
    (content : g.buff.content = units.flatMap TelnetUnit.encode)
    (simple : ∀ unit ∈ units, unit.Simple) :
    (processTelnetOptions g).buff.content = units.flatMap TelnetUnit.decoded ∧
      calls (processTelnetOptions g).session =
        calls g.session ++ units.flatMap TelnetUnit.negotiated ∧
      (processTelnetOptions g).session =
        respondAll (units.flatMap TelnetUnit.negotiated) g.session := by
  have holds := valid.holds
  rw [content] at holds
  obtain ⟨⟨origin,left⟩,effects⟩ := processTelnetOptions_holds holds
  exact ⟨left.content_eq,effects.calls,effects.simple simple⟩

theorem processTelnetOptions_units_sixteen :
    Valid (readFromFdToBuffer (.bytes [65,IAC,IAC,IAC,WILL,IAC,IAC,241]) (bfmalloc 16)).buff ∧
    (processTelnetOptions ⟨(readFromFdToBuffer
      (.bytes [65,IAC,IAC,IAC,WILL,IAC,IAC,241]) (bfmalloc 16)).buff,
      processStart ⟨⟨0,0,0xBD,0⟩,[]⟩⟩).buff.content = [65,IAC] := by
  have valid : Valid (readFromFdToBuffer (.bytes [65,IAC,IAC,IAC,WILL,IAC,IAC,241])
      (bfmalloc 16)).buff := ⟨by decide,by decide,by decide,by decide,by decide⟩
  refine ⟨valid,?_⟩
  exact (processTelnetOptions_units ⟨_,processStart ⟨⟨0,0,0xBD,0⟩,[]⟩⟩
    [.data 65 (by decide),.quoted,.negotiation .WILL IAC,.command 241 (by decide)] valid
    (by decide) (by simp [TelnetUnit.Simple])).1

structure Chunk (bytes : List UInt8) : Prop where
  some : bytes ≠ []
  fits : (bytes.length : Int) ≤ SIZE_BUFFER

/-- The chunk consists of complete commands and data. -/
def Whole (bytes : List UInt8) : Prop :=
  ∃ units : List TelnetUnit, bytes = units.flatMap TelnetUnit.encode

/-- The path chunk by chunk, each write() taking all it is offered; with the
bytes that reached the serial port. -/
def relay : Gateway → List (List UInt8) → Gateway × List UInt8
  | g,[] => (g,[])
  | g,chunk::chunks =>
    let first := socketToSerial (.bytes chunk) .all g
    let rest := relay first.1 chunks
    (rest.1,first.2 ++ rest.2)

theorem decoding_unique {first second : List TelnetUnit}
    (same : first.flatMap TelnetUnit.encode = second.flatMap TelnetUnit.encode) :
    first.flatMap TelnetUnit.decoded = second.flatMap TelnetUnit.decoded ∧
      first.flatMap TelnetUnit.negotiated = second.flatMap TelnetUnit.negotiated := by
  obtain ⟨buff,holds⟩ : ∃ buff, Holds buff 0 (first.flatMap TelnetUnit.encode) :=
    ⟨_,by simpa using append_holds (bfmalloc_holds 1) (first.flatMap TelnetUnit.encode)⟩
  have other := holds
  rw [same] at other
  have scan := processTelnetOptions_holds (g := ⟨buff,processStart ⟨⟨0,0,0,0⟩,[]⟩⟩) holds
  have again := processTelnetOptions_holds (g := ⟨buff,processStart ⟨⟨0,0,0,0⟩,[]⟩⟩) other
  obtain ⟨⟨_,left⟩,effects⟩ := scan
  obtain ⟨⟨_,right⟩,others⟩ := again
  exact ⟨left.content_eq.symm.trans right.content_eq,
    List.append_cancel_left (effects.calls.symm.trans others.calls)⟩

/-- A chunk that arrives in an empty buffer is scanned whole; the search that
decides about the scan may only spare a scan that would change nothing. -/
theorem readSocket_chunk {g : Gateway} {start : Int} {chunk : List UInt8}
    (holds : Holds g.buff start []) (full : g.buff.size = SIZE_BUFFER) (read : Chunk chunk) :
    ∃ buff, Holds buff start chunk ∧ buff.size = SIZE_BUFFER ∧
      readSocket (.bytes chunk) g = (0,processTelnetOptions ⟨buff,g.session⟩) := by
  have asked := calNumbytesToRead_eq holds
  rw [if_pos rfl,full] at asked
  have delivered := readFromFdToBuffer_takes (le_of_le_of_eq read.fits asked.symm)
  have arrived := readFromFdToBuffer_holds holds (.bytes chunk)
  have positive := (readFromFdToBuffer_ret g.buff (.bytes chunk)).mpr (delivered.trans_ne read.some)
  rw [delivered,List.nil_append] at arrived
  refine ⟨_,arrived,(readFromFdToBuffer_size g.buff _).trans full,?_⟩
  rcases readSocket_cases (.bytes chunk) g with
    ⟨none,_,_⟩ | ⟨_,fine,⟨missing,same⟩ | ⟨_,same⟩⟩
  · exact absurd positive (not_lt.mpr none)
  · have reading : Reading {({g with buff := (readFromFdToBuffer (.bytes chunk) g.buff).buff} : Gateway)
        with iac := _, size := _} [] chunk :=
      ⟨⟨start,arrived,fun _ => by simpa using arrived.starts⟩,arrived.counted⟩
    rw [processTelnetOptions_eq,scanNext_none reading (bfstrchr_none arrived missing)]
    exact Prod.ext fine same
  · exact Prod.ext fine same

theorem socketToSerial_whole {g : Gateway} {start : Int} {units : List TelnetUnit}
    (holds : Holds g.buff start []) (full : g.buff.size = SIZE_BUFFER)
    (read : Chunk (units.flatMap TelnetUnit.encode)) :
    let next := socketToSerial (.bytes (units.flatMap TelnetUnit.encode)) .all g
    (∃ origin, Holds next.1.buff origin []) ∧ next.1.buff.size = SIZE_BUFFER ∧
      next.2 = units.flatMap TelnetUnit.decoded ∧
      calls next.1.session = calls g.session ++ units.flatMap TelnetUnit.negotiated := by
  obtain ⟨buff,arrived,capacity,scanned⟩ := readSocket_chunk holds full read
  obtain ⟨⟨origin,left⟩,effects⟩ := processTelnetOptions_holds (g := ⟨buff,g.session⟩) arrived
  obtain ⟨moved,ret,empty⟩ := writeFromBufferToFd_all left
  unfold socketToSerial writeSerial
  rw [scanned]
  dsimp only
  rw [if_neg (not_not.mpr rfl),if_neg (by omega)]
  refine ⟨⟨_,empty⟩,?_,moved,effects.calls⟩
  rw [writeFromBufferToFd_size,processTelnetOptions_capacity]
  exact capacity

theorem relay_whole {g : Gateway} {start : Int} (chunks : List (List TelnetUnit))
    (holds : Holds g.buff start []) (full : g.buff.size = SIZE_BUFFER)
    (reads : ∀ units ∈ chunks, Chunk (units.flatMap TelnetUnit.encode)) :
    (relay g (chunks.map (·.flatMap TelnetUnit.encode))).2 =
        chunks.flatten.flatMap TelnetUnit.decoded ∧
      calls (relay g (chunks.map (·.flatMap TelnetUnit.encode))).1.session =
        calls g.session ++ chunks.flatten.flatMap TelnetUnit.negotiated := by
  induction chunks generalizing g start with
  | nil => simp [relay]
  | cons units chunks ih =>
    obtain ⟨⟨origin,empty⟩,capacity,moved,called⟩ :=
      socketToSerial_whole holds full (reads units List.mem_cons_self)
    obtain ⟨output,answered⟩ := ih empty capacity
      (fun units member => reads units (List.mem_cons_of_mem _ member))
    simp only [List.map_cons,relay,List.flatten_cons,List.flatMap_append]
    rw [moved,output,answered,called,List.append_assoc]
    exact ⟨rfl,rfl⟩

private theorem whole_chunks {chunks : List (List UInt8)} (whole : ∀ chunk ∈ chunks, Whole chunk) :
    ∃ units : List (List TelnetUnit), chunks = units.map (·.flatMap TelnetUnit.encode) := by
  induction chunks with
  | nil => exact ⟨[],rfl⟩
  | cons chunk chunks ih =>
    obtain ⟨first,rfl⟩ := whole chunk List.mem_cons_self
    obtain ⟨rest,rfl⟩ := ih fun chunk member => whole chunk (List.mem_cons_of_mem _ member)
    exact ⟨first::rest,rfl⟩

private theorem flatten_encode (chunks : List (List TelnetUnit)) :
    (chunks.map (·.flatMap TelnetUnit.encode)).flatten =
      chunks.flatten.flatMap TelnetUnit.encode := by
  induction chunks with
  | nil => rfl
  | cons units chunks ih => simp [ih]

/-- Two ways of cutting one stream, both between complete commands: the serial
port receives the same bytes and the same options are answered. -/
theorem relay_chunk_independent (s : Session) (first second : List (List UInt8))
    (same : first.flatten = second.flatten)
    (read : ∀ chunk ∈ first, Chunk chunk ∧ Whole chunk)
    (again : ∀ chunk ∈ second, Chunk chunk ∧ Whole chunk) :
    (relay ⟨bfmalloc SIZE_BUFFER,s⟩ first).2 = (relay ⟨bfmalloc SIZE_BUFFER,s⟩ second).2 ∧
      calls (relay ⟨bfmalloc SIZE_BUFFER,s⟩ first).1.session =
        calls (relay ⟨bfmalloc SIZE_BUFFER,s⟩ second).1.session := by
  obtain ⟨units,rfl⟩ := whole_chunks fun chunk member => (read chunk member).2
  obtain ⟨others,rfl⟩ := whole_chunks fun chunk member => (again chunk member).2
  have empty : Holds (Gateway.mk (bfmalloc SIZE_BUFFER) s).buff 0 [] := bfmalloc_holds _
  obtain ⟨output,called⟩ := relay_whole units empty rfl fun chunk member =>
    (read _ (List.mem_map_of_mem member)).1
  obtain ⟨output',called'⟩ := relay_whole others empty rfl fun chunk member =>
    (again _ (List.mem_map_of_mem member)).1
  rw [flatten_encode,flatten_encode] at same
  obtain ⟨decoded,negotiated⟩ := decoding_unique same
  rw [output,output',called,called',decoded,negotiated]
  exact ⟨rfl,rfl⟩

theorem relay_chunk_independent_two :
    (relay ⟨bfmalloc SIZE_BUFFER,processStart ⟨⟨0,0,0xBD,0⟩,[]⟩⟩ [[65,IAC,IAC]]).2 =
      (relay ⟨bfmalloc SIZE_BUFFER,processStart ⟨⟨0,0,0xBD,0⟩,[]⟩⟩ [[65],[IAC,IAC]]).2 := by
  have data : Whole [65] := ⟨[.data 65 (by decide)],rfl⟩
  have pair : Whole [IAC,IAC] := ⟨[.quoted],rfl⟩
  have both : Whole [65,IAC,IAC] := ⟨[.data 65 (by decide),.quoted],rfl⟩
  refine (relay_chunk_independent (processStart ⟨⟨0,0,0xBD,0⟩,[]⟩) [[65,IAC,IAC]] [[65],[IAC,IAC]]
    rfl ?_ ?_).1
  · intro chunk member
    rw [List.mem_singleton.mp member]
    exact ⟨⟨by simp,by decide⟩,both⟩
  · intro chunk member
    rcases List.mem_cons.mp member with rfl | last
    · exact ⟨⟨by simp,by decide⟩,data⟩
    · rw [List.mem_singleton.mp last]
      exact ⟨⟨by simp,by decide⟩,pair⟩

theorem socketToSerial_single {g : Gateway} {start : Int} (byte : UInt8)
    (holds : Holds g.buff start []) (full : g.buff.size = SIZE_BUFFER) :
    (∃ origin, Holds (socketToSerial (.bytes [byte]) .all g).1.buff origin []) ∧
      (socketToSerial (.bytes [byte]) .all g).1.buff.size = SIZE_BUFFER ∧
      (socketToSerial (.bytes [byte]) .all g).2 = [byte] := by
  have one : Chunk [byte] := ⟨by simp,by simp [SIZE_BUFFER]⟩
  obtain ⟨buff,arrived,capacity,scanned⟩ := readSocket_chunk holds full one
  have short : processTelnetOptions ⟨buff,g.session⟩ = ⟨buff,g.session⟩ := by
    rw [processTelnetOptions_eq]
    exact if_pos (by simp [arrived.counted])
  obtain ⟨moved,ret,empty⟩ := writeFromBufferToFd_all arrived
  unfold socketToSerial writeSerial
  rw [scanned,short]
  dsimp only
  rw [if_neg (not_not.mpr rfl),if_neg (by omega)]
  exact ⟨⟨_,empty⟩,(writeFromBufferToFd_size _ _).trans capacity,moved⟩

/-- Cutting a doubled IAC in the middle doubles it on the serial line. -/
theorem cut_pair_differs : ¬∀ (s : Session) (first second : List (List UInt8)),
    first.flatten = second.flatten → (∀ chunk ∈ first, Chunk chunk) →
    (∀ chunk ∈ second, Chunk chunk) →
    (relay ⟨bfmalloc SIZE_BUFFER,sessionStart s⟩ first).2 =
        (relay ⟨bfmalloc SIZE_BUFFER,sessionStart s⟩ second).2 ∧
      calls (relay ⟨bfmalloc SIZE_BUFFER,sessionStart s⟩ first).1.session =
        calls (relay ⟨bfmalloc SIZE_BUFFER,sessionStart s⟩ second).1.session := by
  intro always
  have whole : Chunk [IAC,IAC] := ⟨by simp,by decide⟩
  have half : Chunk [IAC] := ⟨by simp,by decide⟩
  have same := (always (processStart ⟨⟨0,0,0xBD,0⟩,[]⟩) [[IAC,IAC]] [[IAC],[IAC]] rfl
    (by simpa using whole) (by simpa using half)).1
  have empty : Holds (Gateway.mk (bfmalloc SIZE_BUFFER)
      (sessionStart (processStart ⟨⟨0,0,0xBD,0⟩,[]⟩))).buff 0 [] := bfmalloc_holds _
  have joined := (relay_whole [[.quoted]] empty rfl (by simpa [TelnetUnit.encode] using whole)).1
  obtain ⟨⟨origin,between⟩,capacity,first⟩ := socketToSerial_single IAC empty rfl
  have second := (socketToSerial_single IAC between capacity).2.2
  have output : (relay ⟨bfmalloc SIZE_BUFFER,sessionStart (processStart ⟨⟨0,0,0xBD,0⟩,[]⟩)⟩
      [[IAC],[IAC]]).2 = [IAC,IAC] := by
    simp only [relay,first,second,List.append_nil,List.cons_append,List.nil_append]
  rw [output] at same
  have shorter := joined.symm.trans same
  exact absurd shorter (by decide)

end SerialIp
