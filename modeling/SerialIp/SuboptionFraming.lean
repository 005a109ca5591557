import SerialIp.TelnetUnits

/-! The end of a suboption is looked for twice: by the scan, which removes it,
and by the suboption parser, which takes its command apart. Both stop at the
first SE, so they agree on the payload exactly when it holds no SE. -/
namespace SerialIp
open Library Buffer

def Passive (units : List TelnetUnit) : Prop :=
  ∀ unit ∈ units, unit.Simple ∧ unit.negotiated = []

theorem Passive.cons {unit : TelnetUnit} {units : List TelnetUnit} (simple : unit.Simple)
    (silent : unit.negotiated = []) (passive : Passive units) : Passive (unit::units) :=
  List.forall_mem_cons.mpr ⟨⟨simple,silent⟩,passive⟩

theorem stuffed_units (xs : List UInt8) : ∃ units : List TelnetUnit,
    stuff IAC xs = units.flatMap TelnetUnit.encode ∧ xs = units.flatMap TelnetUnit.decoded ∧
      Passive units := by
  induction xs with
  | nil => exact ⟨[],rfl,rfl,by simp [Passive]⟩
  | cons x xs ih =>
    obtain ⟨units,encoded,decoded,passive⟩ := ih
    by_cases marker : x = IAC
    · subst x
      refine ⟨.quoted::units,?_,?_,passive.cons trivial rfl⟩
      · rw [stuff_marker,encoded]
        rfl
      · rw [List.flatMap_cons,← decoded]
        rfl
    · refine ⟨.data x marker::units,?_,?_,passive.cons trivial rfl⟩
      · rw [stuff_other marker,encoded]
        rfl
      · rw [List.flatMap_cons,← decoded]
        rfl

theorem plain_units {xs : List UInt8} (plain : IAC ∉ xs) : ∃ units : List TelnetUnit,
    xs = units.flatMap TelnetUnit.encode ∧ xs = units.flatMap TelnetUnit.decoded ∧
      Passive units := by
  have stuffed := stuffed_units xs
  rw [stuff_of_notMem plain] at stuffed
  exact stuffed

theorem Passive.append {first second : List TelnetUnit} (left : Passive first)
    (right : Passive second) : Passive (first ++ second) := by
  intro unit member
  rcases List.mem_append.mp member with early | late
  · exact left unit early
  · exact right unit late

/-- The rest of a payload, IAC SE and the data behind it are units of their own. -/
theorem remainder_units (rest : List UInt8) {after : List UInt8} (clean : IAC ∉ after) :
    ∃ units : List TelnetUnit,
      stuff IAC rest ++ (IAC::SE::after) = units.flatMap TelnetUnit.encode ∧ Passive units := by
  obtain ⟨spilled,encoded,_,passive⟩ := stuffed_units rest
  obtain ⟨data,encoded',_,passive'⟩ := plain_units clean
  refine ⟨spilled ++ (TelnetUnit.command SE (by decide)::data),?_,passive.append ?_⟩
  · rw [List.flatMap_append,List.flatMap_cons,← encoded,← encoded']
    rfl
  · intro unit member
    rcases List.mem_cons.mp member with rfl | later
    · exact ⟨trivial,rfl⟩
    · exact passive' unit later

theorem scanNext_passive {st : Scan} {done left : List UInt8} {units : List TelnetUnit}
    (passive : Passive units)
    (reading : Reading st done (units.flatMap TelnetUnit.encode ++ left)) :
    ∃ next, scanNext st = scanNext next ∧
      Reading next (done ++ units.flatMap TelnetUnit.decoded) left ∧ next.session = st.session := by
  obtain ⟨next,scan,read,effects⟩ := scanNext_units units reading
  have calls : units.flatMap TelnetUnit.negotiated = [] := by
    rw [List.flatMap_eq_nil_iff]
    intro unit member
    exact (passive unit member).2
  have same := effects.simple fun unit member => (passive unit member).1
  rw [calls] at same
  exact ⟨next,scan,read,same⟩

theorem scanNext_rest {st : Scan} {done : List UInt8} {units : List TelnetUnit}
    (passive : Passive units) (reading : Reading st done (units.flatMap TelnetUnit.encode)) :
    (scanNext st).buff.content = done ++ units.flatMap TelnetUnit.decoded ∧
      (scanNext st).session = st.session := by
  rw [← List.append_nil (units.flatMap _)] at reading
  obtain ⟨next,scan,read,same⟩ := scanNext_passive passive reading
  rw [scan,scanNext_none read (by simp)]
  exact ⟨read.content,same⟩

theorem processTelnetOptions_suboption {g : Gateway} {before body left : List UInt8}
    (valid : Valid g.buff)
    (content : g.buff.content = before ++ IAC::SB::TELOPT_COM_PORT_OPTION::(body ++ SE::left))
    (plain : IAC ∉ before) (framed : SE ∉ body)
    (enabled : telnetClientOptionIsEnabled TELOPT_COM_PORT_OPTION g.session) :
    ∃ next mem start size, processTelnetOptions g = scanNext next ∧ Reading next before left ∧
      mem.read start (Int.toNat size) = body ++ SE::left ∧
      next.session = (processTelnetCpcSuboption mem start size g.session).2 := by
  have holds := valid.holds
  rw [content] at holds
  obtain ⟨units,encoded,decoded,passive⟩ := plain_units plain
  have reading : Reading {g with iac := g.buff.writep, size := g.buff.nbuffered} []
      (units.flatMap TelnetUnit.encode ++
        IAC::SB::TELOPT_COM_PORT_OPTION::(body ++ SE::left)) := by
    rw [← encoded]
    exact ⟨⟨_,holds,fun _ => by simp⟩,holds.counted⟩
  obtain ⟨st,scan,read,same⟩ := scanNext_passive passive reading
  rw [← decoded,List.nil_append] at read
  obtain ⟨further,answered⟩ := scanCommand_suboption read framed
  have whole : st.buff.mem.read st.iac (IAC::SB::TELOPT_COM_PORT_OPTION::(body ++ SE::left)).length =
      [IAC,SB,TELOPT_COM_PORT_OPTION] ++ (body ++ SE::left) := read.suffix
  have behind : st.buff.mem.read (st.iac+3) (body ++ SE::left).length = body ++ SE::left :=
    (Block.read_split st.buff.mem whole).2
  have size : (st.size-3).toNat = (body ++ SE::left).length := by
    rw [read.size]
    simp only [List.length_cons]
    omega
  refine ⟨scanCommand st,st.buff.mem,st.iac+3,st.size-3,?_,further,size ▸ behind,?_⟩
  · rw [processTelnetOptions_eq,scan,scanNext_command read]
  · rw [answered,answerSuboption,same,if_pos ⟨rfl,enabled⟩]

/-- The suboption has left no byte behind, and its code and payload were
dispatched, a payload of 1, 2 or 4 bytes as a number too. -/
def Framed (g : Gateway) (before after : List UInt8) (suboptcode : UInt8) (payload : List UInt8) :
    Prop :=
  (processTelnetOptions g).buff.content = before ++ after ∧
  ∃ value, dispatches (processTelnetOptions g).session =
      dispatches g.session ++ [(suboptcode,value,payload)] ∧
    (payload.length = 1 ∨ payload.length = 2 ∨ payload.length = 4 → value = networkValue payload)

theorem framed_of_notMem {g : Gateway} {before after payload : List UInt8} {suboptcode : UInt8}
    (valid : Valid g.buff)
    (content : g.buff.content = before ++
      [IAC,SB,TELOPT_COM_PORT_OPTION,suboptcode] ++ stuff IAC payload ++ [IAC,SE] ++ after)
    (plain : IAC ∉ before) (clean : IAC ∉ after) (notSe : suboptcode ≠ SE)
    (fits : (stuff IAC payload).length ≤ 255)
    (enabled : telnetClientOptionIsEnabled TELOPT_COM_PORT_OPTION g.session)
    (absent : SE ∉ payload) : Framed g before after suboptcode payload := by
  have unstuffed : SE ∉ stuff IAC payload := by
    rw [mem_stuff]
    exact absent
  have framed : SE ∉ suboptcode::(stuff IAC payload ++ [IAC]) := by
    simp only [List.mem_cons,List.mem_append,List.not_mem_nil,or_false,not_or]
    exact ⟨Ne.symm notSe,unstuffed,by decide⟩
  obtain ⟨next,mem,start,size,scan,read,optstr,session⟩ :=
    processTelnetOptions_suboption valid (by simpa using content) plain framed enabled
  have dispatched := processTelnetCpcSuboption_dispatches g.session optstr (by omega) unstuffed
  obtain ⟨units,encoded,decoded,passive⟩ := plain_units clean
  rw [encoded] at read
  obtain ⟨left,same⟩ := scanNext_rest passive read
  rw [← decoded] at left
  unfold Framed
  rw [scan,same,session,dispatched,unstuff_stuff]
  refine ⟨left,_,rfl,?_⟩
  intro number
  exact if_pos number

/-- What lies between the code and the first SE of a stuffed payload ends in an
IAC only if the payload has one there, and then decodes to that part of it. -/
private theorem cut_payload (xs : List UInt8) :
    (stuff IAC xs).getLast? ≠ some IAC ∨
      ∃ text, stuff IAC xs = text ++ [IAC] ∧ unstuff IAC text = xs := by
  rcases List.eq_nil_or_concat xs with rfl | ⟨begin,byte,rfl⟩
  · exact Or.inl (by simp)
  · rw [List.concat_eq_append,stuff_append]
    by_cases marker : byte = IAC
    · subst byte
      refine Or.inr ⟨stuff IAC begin ++ [IAC],by simp,?_⟩
      rw [unstuff_stuff_append]
      rfl
    · rw [stuff_other marker,stuff_nil,List.getLast?_concat]
      exact Or.inl fun same => marker (Option.some.inj same)

theorem not_framed_of_mem {g : Gateway} {before after payload : List UInt8} {suboptcode : UInt8}
    (valid : Valid g.buff)
    (content : g.buff.content = before ++
      [IAC,SB,TELOPT_COM_PORT_OPTION,suboptcode] ++ stuff IAC payload ++ [IAC,SE] ++ after)
    (plain : IAC ∉ before) (clean : IAC ∉ after) (notIac : suboptcode ≠ IAC)
    (notSe : suboptcode ≠ SE) (fits : (stuff IAC payload).length ≤ 255)
    (enabled : telnetClientOptionIsEnabled TELOPT_COM_PORT_OPTION g.session)
    (present : SE ∈ payload) : ¬Framed g before after suboptcode payload := by
  obtain ⟨first,rest,rfl,absent⟩ := List.eq_append_cons_of_mem present
  have cut : stuff IAC (first ++ SE::rest) = stuff IAC first ++ SE::stuff IAC rest := by
    rw [stuff_append,stuff_other (by decide)]
  rw [cut] at content fits
  have unstuffed : SE ∉ stuff IAC first := by
    rw [mem_stuff]
    exact absent
  have framed : SE ∉ suboptcode::stuff IAC first := by
    rw [List.mem_cons,not_or]
    exact ⟨Ne.symm notSe,unstuffed⟩
  obtain ⟨next,mem,start,size,scan,read,optstr,session⟩ :=
    processTelnetOptions_suboption valid (by simpa using content) plain framed enabled
  obtain ⟨units,encoded,passive⟩ := remainder_units rest clean
  rw [encoded] at read
  have same := (scanNext_rest passive read).2
  intro framed
  obtain ⟨_,value,dispatched,_⟩ := framed
  rw [scan,same,session] at dispatched
  rcases cut_payload first with other | ⟨text,ends,decoded⟩
  · rw [List.cons_append] at optstr
    have ignored := processTelnetCpcSuboption_ignored g.session optstr unstuffed (by
      cases shape : stuff IAC first with
      | nil => simpa using notIac
      | cons y ys =>
        rw [shape] at other
        simpa using other)
    rw [ignored] at dispatched
    have length := congrArg List.length dispatched
    simp at length
  · rw [List.cons_append,ends] at optstr
    rw [ends,List.mem_append,not_or] at unstuffed
    rw [ends] at fits
    simp only [List.length_append] at fits
    have partly := processTelnetCpcSuboption_dispatches g.session optstr (by omega) unstuffed.1
    rw [partly,decoded] at dispatched
    have entry := List.append_cancel_left dispatched
    simp only [List.cons.injEq,Prod.mk.injEq] at entry
    have shorter := congrArg List.length entry.1.2.2
    simp at shorter

/-- The framing law holds exactly for payloads without an SE. -/
theorem framed_iff (g : Gateway) (before after payload : List UInt8) (suboptcode : UInt8)
    (valid : Valid g.buff)
    (content : g.buff.content = before ++
      [IAC,SB,TELOPT_COM_PORT_OPTION,suboptcode] ++ stuff IAC payload ++ [IAC,SE] ++ after)
    (plain : IAC ∉ before) (clean : IAC ∉ after) (notIac : suboptcode ≠ IAC)
    (notSe : suboptcode ≠ SE) (fits : (stuff IAC payload).length ≤ 255)
    (enabled : telnetClientOptionIsEnabled TELOPT_COM_PORT_OPTION g.session) :
    Framed g before after suboptcode payload ↔ SE ∉ payload := by
  constructor
  · intro framed present
    exact not_framed_of_mem valid content plain clean notIac notSe fits enabled present framed
  · exact framed_of_notMem valid content plain clean notSe fits enabled

theorem framed_iff_datasize :
    Framed ⟨(readFromFdToBuffer (.bytes [65,IAC,SB,TELOPT_COM_PORT_OPTION,CPC_SET_DATASIZE_C2S,8,
        IAC,SE,66]) (bfmalloc 16)).buff,
      enableTelnetClientOption TELOPT_COM_PORT_OPTION (processStart ⟨⟨0,0,0xBD,0⟩,[]⟩)⟩
      [65] [66] CPC_SET_DATASIZE_C2S [8] := by
  have valid : Valid (readFromFdToBuffer (.bytes [65,IAC,SB,TELOPT_COM_PORT_OPTION,
      CPC_SET_DATASIZE_C2S,8,IAC,SE,66]) (bfmalloc 16)).buff :=
    ⟨by decide,by decide,by decide,by decide,by decide⟩
  exact (framed_iff ⟨_,enableTelnetClientOption TELOPT_COM_PORT_OPTION
      (processStart ⟨⟨0,0,0xBD,0⟩,[]⟩)⟩ [65] [66] [8] CPC_SET_DATASIZE_C2S valid (by decide)
    (by decide) (by decide) (by decide) (by decide) (by decide) (by decide)).mpr (by decide)

/-- Asking for 61440 baud: the third of the four bytes is an SE. -/
theorem baudrate_with_se_not_framed :
    ¬∀ (g : Gateway) (before after payload : List UInt8) (suboptcode : UInt8),
      Valid g.buff → g.buff.content = before ++
        [IAC,SB,TELOPT_COM_PORT_OPTION,suboptcode] ++ stuff IAC payload ++ [IAC,SE] ++ after →
      IAC ∉ before → IAC ∉ after → suboptcode ≠ IAC → suboptcode ≠ SE →
      (stuff IAC payload).length ≤ 255 →
      telnetClientOptionIsEnabled TELOPT_COM_PORT_OPTION g.session →
      Framed g before after suboptcode payload := by
  intro always
  have valid : Valid (readFromFdToBuffer (.bytes [65,IAC,SB,TELOPT_COM_PORT_OPTION,
      CPC_SET_BAUDRATE_C2S,0,0,SE,0,IAC,SE,66]) (bfmalloc 16)).buff :=
    ⟨by decide,by decide,by decide,by decide,by decide⟩
  have enabled : telnetClientOptionIsEnabled TELOPT_COM_PORT_OPTION
      (enableTelnetClientOption TELOPT_COM_PORT_OPTION (processStart ⟨⟨0,0,0xBD,0⟩,[]⟩)) := by
    decide
  have framed := always ⟨_,_⟩ [65] [66] [0,0,SE,0] CPC_SET_BAUDRATE_C2S valid (by decide)
    (by decide) (by decide) (by decide) (by decide) (by decide) enabled
  exact not_framed_of_mem valid (by decide) (by decide) (by decide) (by decide) (by decide)
    (by decide) enabled (by decide) framed

end SerialIp
