import SerialIp.HonestReply

/-! The suboptions the server sends. Their content is doubled and cut behind 253 bytes,
which may be between the two bytes of one doubled IAC; the array they are built in is
never left. -/
namespace SerialIp
open Library Buffer Session

/-- Some prefix of the content, doubled and framed; the whole content where the limit
allows it; and no lone IAC in front of the terminating IAC SE. -/
structure WellFormed (suboptcode : UInt8) (content bytes : List UInt8) : Prop where
  framed : ∃ text, text <+: content ∧
    bytes = [IAC,SB,TELOPT_COM_PORT_OPTION,suboptcode] ++ stuff IAC text ++ [IAC,SE]
  complete : 4+(stuff IAC content).length ≤ 256 →
    bytes = [IAC,SB,TELOPT_COM_PORT_OPTION,suboptcode] ++ stuff IAC content ++ [IAC,SE]
  terminated : ∀ payload,
    bytes = [IAC,SB,TELOPT_COM_PORT_OPTION,suboptcode] ++ payload ++ [IAC,SE] →
      Even (markerRun IAC payload)

/-- The first 252 bytes of the doubled content end before an IAC. -/
def CutInside (content : List UInt8) : Prop :=
  ∃ before after, content = before ++ IAC::after ∧ (stuff IAC before).length = 252

theorem suboption_wellFormed (suboptcode : UInt8) (content : List UInt8) :
    WellFormed suboptcode content (suboption suboptcode content) ↔ ¬CutInside content := by
  have payload {first second : List UInt8}
      (same : [IAC,SB,TELOPT_COM_PORT_OPTION,suboptcode] ++ first ++ [IAC,SE] =
        [IAC,SB,TELOPT_COM_PORT_OPTION,suboptcode] ++ second ++ [IAC,SE]) : first = second :=
    List.append_cancel_left (List.append_cancel_right same)
  have limit : CutInside content ↔ ∃ before after,
      content = before ++ IAC::after ∧ (stuff IAC before).length+1 = 253 := by
    unfold CutInside
    refine exists_congr fun before => exists_congr fun after => and_congr_right fun _ => ?_
    omega
  rw [limit,← stuff_take_iff]
  constructor
  · intro formed
    obtain ⟨text,front,same⟩ := formed.framed
    exact ⟨text,front,payload same⟩
  · intro whole
    obtain ⟨text,front,cut⟩ := whole
    refine ⟨⟨text,front,?_⟩,?_,?_⟩
    · unfold suboption
      rw [cut]
    · intro short
      unfold suboption
      rw [List.take_of_length_le (by omega)]
    · intro other same
      rw [← payload same,cut]
      exact markerRun_stuff IAC text

theorem sendTelnetCpcSuboption_empty {s : Session} (suboptcode : UInt8) (content : List UInt8)
    (invariant : Invariant s.sabre) (empty : s.sabre.content = []) (room : 259 ≤ s.sabre.size) :
    Appends (suboption suboptcode content) s (sendTelnetCpcSuboption suboptcode content s).2 := by
  apply sendTelnetCpcSuboption_appends invariant
  have counted := invariant.toValid.holds.counted
  rw [empty] at counted
  have start := (invariant.rewound counted).1
  have tail := invariant.tail
  have short := suboption_length suboptcode content
  omega

/-- What is appended to an empty buffer is well formed exactly when the limit does not
fall between the two bytes of a doubled IAC. -/
theorem suboption_wellFormed_iff (suboptcode : UInt8) (content : List UInt8) (s : Session)
    (invariant : Invariant s.sabre) (empty : s.sabre.content = []) (room : 259 ≤ s.sabre.size) :
    (∃ bytes, Appends bytes s (sendTelnetCpcSuboption suboptcode content s).2 ∧
      WellFormed suboptcode content bytes) ↔ ¬CutInside content := by
  have appended := sendTelnetCpcSuboption_empty suboptcode content invariant empty room
  rw [← suboption_wellFormed suboptcode content]
  constructor
  · intro sent
    obtain ⟨bytes,grown,formed⟩ := sent
    have same : bytes = suboption suboptcode content :=
      List.append_cancel_left (grown.grown.symm.trans appended.grown)
    rw [← same]
    exact formed
  · exact fun formed => ⟨_,appended,formed⟩

/-- A signature with one IAC in it. -/
theorem suboption_wellFormed_iff_signature :
    let s := {processStart ⟨⟨0,0,0xBD,0⟩,[]⟩ with sabre := bfmalloc SIZE_BUFFER}
    ∃ bytes, Appends bytes s (sendTelnetCpcSuboption CPC_SIGNATURE_S2C [65,IAC,66] s).2 ∧
      WellFormed CPC_SIGNATURE_S2C [65,IAC,66] bytes := by
  intro s
  have size : s.sabre.size = SIZE_BUFFER := bfmalloc_size (by decide)
  refine (suboption_wellFormed_iff CPC_SIGNATURE_S2C [65,IAC,66] s (bfmalloc_invariant _)
    (bfmalloc_holds _).content_eq (by rw [size]; decide)).mpr ?_
  intro cut
  obtain ⟨before,after,same,long⟩ := cut
  have fewer := List.count_le_length (a := IAC) (l := before)
  have length := congrArg List.length same
  rw [stuff_length] at long
  simp only [List.length_append,List.length_cons,List.length_nil] at length
  omega

/-- A description of 252 plain bytes with an IAC behind them. -/
theorem long_signature_cut : ¬∀ (suboptcode : UInt8) (content : List UInt8) (s : Session),
    Invariant s.sabre → s.sabre.content = [] → 259 ≤ s.sabre.size →
      ∃ bytes, Appends bytes s (sendTelnetCpcSuboption suboptcode content s).2 ∧
        WellFormed suboptcode content bytes := by
  intro always
  let content := List.replicate 252 65 ++ [IAC]
  let s := {processStart ⟨⟨0,0,0xBD,0⟩,[]⟩ with sabre := bfmalloc SIZE_BUFFER}
  have size : s.sabre.size = SIZE_BUFFER := bfmalloc_size (by decide)
  have room : 259 ≤ s.sabre.size := by
    rw [size]
    decide
  have empty : s.sabre.content = [] := (bfmalloc_holds _).content_eq
  have appended := sendTelnetCpcSuboption_empty CPC_SIGNATURE_S2C content (bfmalloc_invariant _) empty room
  obtain ⟨bytes,grown,formed⟩ := always CPC_SIGNATURE_S2C content s (bfmalloc_invariant _) empty room
  have same : bytes = suboption CPC_SIGNATURE_S2C content :=
    List.append_cancel_left (grown.grown.symm.trans appended.grown)
  rw [same] at formed
  refine (suboption_wellFormed CPC_SIGNATURE_S2C content).mp formed
    ⟨List.replicate 252 65,[],rfl,?_⟩
  rw [stuff_of_notMem fun member => absurd (List.eq_of_mem_replicate member) (by decide)]
  exact List.length_replicate

/-- The places of the content that the loop looks at: each byte once when it is compared
with IAC, and once more when it is copied. -/
def escapeContentReads : Int → List UInt8 → List Nat
  | _,[] => []
  | size,c::rest =>
    if c = IAC then
      if size+1 > MAX_TELNET_CPC_COMMAND_LEN then [0]
      else if size+1+1 > MAX_TELNET_CPC_COMMAND_LEN then [0,0]
      else 0::0::(escapeContentReads (size+1+1) rest).map (· + 1)
    else if size+1 > MAX_TELNET_CPC_COMMAND_LEN then [0,0]
    else 0::0::(escapeContentReads (size+1) rest).map (· + 1)

theorem escapeContentReads_bounds {size : Int} {content : List UInt8} :
    ∀ i ∈ escapeContentReads size content, i < content.length := by
  induction content generalizing size with
  | nil => exact fun i member => absurd member List.not_mem_nil
  | cons c rest ih =>
    have further (size : Int) :
        ∀ i ∈ 0::0::(escapeContentReads size rest).map (· + 1), i < (c::rest).length := by
      simp only [List.forall_mem_cons,List.forall_mem_map,List.length_cons]
      exact ⟨Nat.succ_pos _,Nat.succ_pos _,fun i member => Nat.succ_lt_succ (ih i member)⟩
    unfold escapeContentReads
    split_ifs
    · simp
    · simp
    · exact further _
    · simp
    · exact further _

/-- The loop depends on nothing but what it looks at. -/
theorem escapeContent_congr (optstr : Block UInt8) (p : Int) {size : Int}
    {content other : List UInt8} (length : content.length = other.length)
    (same : ∀ i ∈ escapeContentReads size content, content[i]? = other[i]?) :
    escapeContent optstr p size content = escapeContent optstr p size other := by
  induction content generalizing optstr p size other with
  | nil => rw [List.eq_nil_of_length_eq_zero length.symm]
  | cons c rest ih =>
    obtain ⟨d,tail,rfl⟩ := List.exists_cons_of_length_eq_add_one length.symm
    have shorter : rest.length = tail.length := Nat.succ.inj length
    unfold escapeContentReads at same
    have here : c = d := by
      have first := same 0 (by split_ifs <;> exact List.mem_cons_self)
      exact Option.some.inj first
    subst here
    have later {size : Int} (same : ∀ i ∈ 0::0::(escapeContentReads size rest).map (· + 1),
        (c::rest)[i]? = (c::tail)[i]?) (optstr : Block UInt8) (p : Int) :
        escapeContent optstr p size rest = escapeContent optstr p size tail := by
      simp only [List.forall_mem_cons,List.forall_mem_map,List.getElem?_cons_succ] at same
      exact ih optstr p shorter same.2.2
    unfold escapeContent
    dsimp only
    split_ifs at same ⊢
    · rfl
    · rfl
    · exact later same _ _
    · rfl
    · exact later same _ _

/-- The places of the content that send_telnet_cpc_suboption looks at in its loop. -/
def contentReads (content : List UInt8) : List Nat :=
  let cmdlen : Int := content.length
  let cmdlen := if cmdlen ≥ MAX_TELNET_CPC_COMMAND_LEN then MAX_TELNET_CPC_COMMAND_LEN-1 else cmdlen
  escapeContentReads 4 (content.take cmdlen.toNat)

theorem sendTelnetCpcSuboption_optstr (suboptcode : UInt8) (content : List UInt8) (s : Session) :
    (sendTelnetCpcSuboption suboptcode content s).2.optstr =
      (buildSuboption s.optstr suboptcode content).1 := by
  have sent (t : Session) : t.writeSabre.2.optstr = t.optstr := by
    unfold writeSabre
    dsimp only
    split_ifs <;> rfl
  unfold sendTelnetCpcSuboption
  dsimp only
  split_ifs
  · exact sent _
  · exact sent _
  · rfl

/-- A call fills the array with `size` bytes, each at a place of its own, and the final NUL
behind them, and it looks at no byte of the content behind the limit. -/
structure OptstrInside (content : List UInt8) (size : Int) (optstr filled : Block UInt8) : Prop where
  written : ∃ places : List Int, filled.stores = size::(places ++ optstr.stores) ∧
    places.length = size ∧ places.Nodup ∧
    ∀ i ∈ size::places, 0 ≤ i ∧ i < MAX_TELNET_CPC_COMMAND_LEN+8
  closed : filled.cell size = 0
  read : ∀ i ∈ contentReads content,
    (i : Int) < min (content.length : Int) (MAX_TELNET_CPC_COMMAND_LEN-1)

theorem contentReads_bounds {content : List UInt8} {i : Nat} (member : i ∈ contentReads content) :
    (i : Int) < min (content.length : Int) (MAX_TELNET_CPC_COMMAND_LEN-1) := by
  have bound := escapeContentReads_bounds i member
  rw [List.length_take] at bound
  unfold MAX_TELNET_CPC_COMMAND_LEN at bound ⊢
  split_ifs at bound <;> omega

/-- Whatever is sent, the array has room for it, and bfstrncat is handed as many bytes as
were written. -/
theorem optstr_inside (suboptcode : UInt8) (content : List UInt8) (s : Session) :
    OptstrInside content (buildSuboption s.optstr suboptcode content).2 s.optstr
      (sendTelnetCpcSuboption suboptcode content s).2.optstr := by
  have short := suboption_length suboptcode content
  have closed : s.optstr.copy 0 (suboption suboptcode content ++ [0]) =
      (s.optstr.copy 0 (suboption suboptcode content)).store
        (suboption suboptcode content).length 0 := by
    rw [Block.copy_append,zero_add]
    rfl
  rw [sendTelnetCpcSuboption_optstr,buildSuboption_eq]
  dsimp only
  rw [closed]
  refine ⟨⟨(Block.span 0 (suboption suboptcode content).length).reverse,?_,?_,
    List.nodup_reverse.mpr (Block.span_nodup _ _),?_⟩,Block.store_same _ _ _,
    fun _ => contentReads_bounds⟩
  · rw [← Block.copy_stores]
    rfl
  · rw [List.length_reverse,Block.span_length]
  · unfold MAX_TELNET_CPC_COMMAND_LEN
    refine List.forall_mem_cons.mpr ⟨by omega,fun i member => ?_⟩
    rw [List.mem_reverse,Block.mem_span] at member
    omega

end SerialIp
