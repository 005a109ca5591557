import SerialIp.Negotiation

/-! What the option table says against what the client was told. Each command is
sent only once, so the table and the last announcement agree until the client
withdraws an option it had asked for. -/
namespace SerialIp
open Library

def announcements (side : Side) (option : UInt8) (sent : List (OptCode × UInt8)) :
    List (OptCode × UInt8) :=
  sent.filter fun entry => entry = (side.accept,option) ∨ entry = (side.refuse,option)

def latest (side : Side) (option : UInt8) (sent : List (OptCode × UInt8)) : Option OptCode :=
  (announcements side option sent).getLast?.map (·.1)

theorem announcements_other {side : Side} {option : UInt8} {entry : OptCode × UInt8}
    (other : ¬(entry = (side.accept,option) ∨ entry = (side.refuse,option)))
    (log : Once (OptCode × UInt8)) :
    announcements side option (log.add entry).entries = announcements side option log.entries := by
  by_cases present : entry ∈ log.entries
  · rw [Once.add_of_mem present]
  · unfold announcements
    rw [Once.add_of_notMem present,List.filter_append,List.filter_singleton]
    simp [other]

theorem announcements_add (side : Side) (option : UInt8) {entry : OptCode × UInt8}
    (about : entry = (side.accept,option) ∨ entry = (side.refuse,option))
    (log : Once (OptCode × UInt8)) :
    announcements side option (log.add entry).entries =
      if entry ∈ announcements side option log.entries then announcements side option log.entries
      else announcements side option log.entries ++ [entry] := by
  have member : entry ∈ announcements side option log.entries ↔ entry ∈ log.entries := by
    unfold announcements
    rw [List.mem_filter]
    simp [about]
  by_cases present : entry ∈ log.entries
  · rw [Once.add_of_mem present,if_pos (member.mpr present)]
  · rw [if_neg (member.not.mpr present)]
    unfold announcements
    rw [Once.add_of_notMem present,List.filter_append,List.filter_singleton]
    simp [about]

theorem pair_sublist_concat {α : Type} (a b x : α) (past : List α) :
    [a,b].Sublist (past ++ [x]) ↔ [a,b].Sublist past ∨ (b = x ∧ a ∈ past) := by
  constructor
  · intro pair
    obtain ⟨first,second,split,before,last⟩ := List.sublist_append_iff.mp pair
    rcases List.sublist_singleton.mp last with rfl | rfl
    · rw [List.append_nil] at split
      rw [split]
      exact Or.inl before
    · have ends : [a] ++ [b] = first ++ [x] := split
      obtain ⟨same,single⟩ := List.append_inj' ends rfl
      rw [← same] at before
      exact Or.inr ⟨List.singleton_inj.mp single,List.singleton_sublist.mp before⟩
  · intro either
    rcases either with earlier | ⟨rfl,asked⟩
    · exact earlier.trans (List.sublist_append_left past [x])
    · exact (List.singleton_sublist.mpr asked).append (List.Sublist.refl [b])

/-- Where one side of an option stands after the commands `past`. -/
inductive Phase (side : Side) (option : UInt8) (past : List (OptCode × UInt8)) (l : Ledger) : Prop
  | untouched (unasked : (side.ask,option) ∉ past) (off : l.enabled side option = false)
      (said : announcements side option l.log.entries = [] ∨
        announcements side option l.log.entries = [(side.accept,option)])
  | agreed (asked : (side.ask,option) ∈ past)
      (kept : ¬[(side.ask,option),(side.withdraw,option)].Sublist past)
      (on : l.enabled side option = true)
      (said : announcements side option l.log.entries = [(side.accept,option)])
  | withdrawn (undone : [(side.ask,option),(side.withdraw,option)].Sublist past)
      (said : announcements side option l.log.entries =
        [(side.accept,option),(side.refuse,option)])

theorem Phase.elsewhere {side : Side} {option : UInt8} {past : List (OptCode × UInt8)} {l : Ledger}
    (phase : Phase side option past l) {optcode : OptCode} {key : UInt8}
    (other : ¬(optcode.side = side ∧ key = option)) :
    Phase side option (past ++ [(optcode,key)]) (l.answer optcode key) := by
  have reply : ¬((optcode.reply,key) = (side.accept,option) ∨
      (optcode.reply,key) = (side.refuse,option)) := by
    intro either
    rcases either with same | same
    all_goals
      obtain ⟨code,rfl⟩ := Prod.mk.inj same
      apply other
      cases optcode <;> cases side <;> first | exact ⟨rfl,rfl⟩ | (exact absurd code (by decide))
  have said : announcements side option (l.answer optcode key).log.entries =
      announcements side option l.log.entries := by
    unfold Ledger.answer
    split
    · rfl
    · exact announcements_other reply l.log
  have flag : (l.answer optcode key).enabled side option = l.enabled side option := by
    unfold Ledger.answer
    split
    · rfl
    · refine if_neg ?_
      intro both
      obtain ⟨same,equal⟩ := both
      exact other ⟨same.symm,equal.symm⟩
  have foreign {code : OptCode} (own : code.side = side) : (code,option) ≠ (optcode,key) := by
    intro same
    obtain ⟨rfl,rfl⟩ := Prod.mk.inj same
    exact other ⟨own,rfl⟩
  have unasked : (side.ask,option) ≠ (optcode,key) := foreign (by cases side <;> rfl)
  have stays : (side.withdraw,option) ≠ (optcode,key) := foreign (by cases side <;> rfl)
  cases phase with
  | untouched silent off before =>
    refine .untouched ?_ (flag.trans off) (said ▸ before)
    rw [List.mem_append,List.mem_singleton]
    intro either
    rcases either with earlier | now
    · exact silent earlier
    · exact unasked now
  | agreed asked kept on before =>
    refine .agreed (List.mem_append_left _ asked) ?_ (flag.trans on) (said.trans before)
    rw [pair_sublist_concat]
    intro either
    rcases either with earlier | ⟨now,_⟩
    · exact kept earlier
    · exact stays now
  | withdrawn undone before =>
    exact .withdrawn (undone.trans (List.sublist_append_left past _)) (said.trans before)

theorem answer_ask (side : Side) (option : UInt8) (l : Ledger) :
    l.answer side.ask option = if l.enabled side option = true then l
      else (l.send side.accept option).turn side option true := by
  cases side <;> rfl

theorem answer_withdraw (side : Side) (option : UInt8) (l : Ledger) :
    l.answer side.withdraw option = if l.enabled side option = false then l
      else (l.send side.refuse option).turn side option false := by
  cases side <;> rfl

theorem Phase.ask {side : Side} {option : UInt8} {past : List (OptCode × UInt8)} {l : Ledger}
    (phase : Phase side option past l) :
    Phase side option (past ++ [(side.ask,option)]) (l.answer side.ask option) := by
  have accepted := announcements_add side option (Or.inl rfl) l.log
  have asked : (side.ask,option) ∈ past ++ [(side.ask,option)] := by simp
  rw [answer_ask]
  cases phase with
  | untouched silent off before =>
    have kept : ¬[(side.ask,option),(side.withdraw,option)].Sublist (past ++ [(side.ask,option)]) := by
      rw [pair_sublist_concat]
      intro either
      rcases either with earlier | ⟨_,now⟩
      · exact silent (earlier.subset List.mem_cons_self)
      · exact silent now
    rw [if_neg (by rw [off]; decide)]
    refine .agreed asked kept (if_pos ⟨rfl,rfl⟩) (accepted.trans ?_)
    rcases before with none | once
    · rw [none]
      rfl
    · rw [once]
      exact if_pos List.mem_cons_self
  | agreed earlier kept on before =>
    rw [if_pos on]
    refine .agreed asked ?_ on before
    rw [pair_sublist_concat]
    intro either
    rcases either with pair | ⟨same,_⟩
    · exact kept pair
    · exact absurd (Prod.mk.inj same).1 (by cases side <;> decide)
  | withdrawn undone before =>
    have still := undone.trans (List.sublist_append_left past [(side.ask,option)])
    split
    · exact .withdrawn still before
    · refine .withdrawn still (accepted.trans ?_)
      rw [before]
      exact if_pos List.mem_cons_self

theorem Phase.withdraw {side : Side} {option : UInt8} {past : List (OptCode × UInt8)} {l : Ledger}
    (phase : Phase side option past l) :
    Phase side option (past ++ [(side.withdraw,option)]) (l.answer side.withdraw option) := by
  have refused := announcements_add side option (Or.inr rfl) l.log
  rw [answer_withdraw]
  cases phase with
  | untouched silent off before =>
    rw [if_pos off]
    refine .untouched ?_ off before
    rw [List.mem_append,List.mem_singleton]
    intro either
    rcases either with earlier | same
    · exact silent earlier
    · exact absurd (Prod.mk.inj same).1 (by cases side <;> decide)
  | agreed asked kept on before =>
    have undone := (pair_sublist_concat (side.ask,option) _ (side.withdraw,option) past).mpr
      (Or.inr ⟨rfl,asked⟩)
    rw [if_neg (by rw [on]; decide)]
    refine .withdrawn undone (refused.trans ?_)
    rw [before]
    refine if_neg ?_
    rw [List.mem_singleton]
    intro same
    exact absurd (Prod.mk.inj same).1 (by cases side <;> decide)
  | withdrawn undone before =>
    have still := undone.trans (List.sublist_append_left past [(side.withdraw,option)])
    split
    · exact .withdrawn still before
    · refine .withdrawn still (refused.trans ?_)
      rw [before]
      exact if_pos (List.mem_cons_of_mem _ List.mem_cons_self)

theorem Phase.step {side : Side} {option : UInt8} {past : List (OptCode × UInt8)} {l : Ledger}
    (phase : Phase side option past l) (optcode : OptCode) (key : UInt8) :
    Phase side option (past ++ [(optcode,key)]) (l.answer optcode key) := by
  by_cases about : optcode.side = side ∧ key = option
  · obtain ⟨rfl,rfl⟩ := about
    cases optcode with
    | WILL | DO => exact phase.ask
    | WONT | DONT => exact phase.withdraw
  · exact phase.elsewhere about

theorem Phase.start (side : Side) (option : UInt8) : Phase side option [] Ledger.start.offer := by
  have offers : Ledger.start.offer.log.entries = initialOffers := by decide
  have once : (announcements side option initialOffers).Nodup := by
    rw [← offers]
    exact Ledger.start.offer.log.distinct.filter _
  have positive : ∀ entry ∈ announcements side option initialOffers,
      entry = (side.accept,option) := by
    intro entry member
    obtain ⟨offered,about⟩ := List.mem_filter.mp member
    rcases of_decide_eq_true about with same | same
    · exact same
    · subst same
      cases side <;> simp [initialOffers,Side.refuse] at offered
  refine .untouched List.not_mem_nil rfl ?_
  rw [offers]
  cases shape : announcements side option initialOffers with
  | nil => exact Or.inl rfl
  | cons first rest =>
    rw [shape] at once positive
    have head := positive first List.mem_cons_self
    cases rest with
    | nil =>
      rw [head]
      exact Or.inr rfl
    | cons second rest =>
      have next := positive second (List.mem_cons_of_mem _ List.mem_cons_self)
      rw [head,next] at once
      exact absurd List.mem_cons_self (List.nodup_cons.mp once).1

theorem Phase.run {side : Side} {option : UInt8} {past cmds : List (OptCode × UInt8)} {s : Session}
    {l : Ledger} (phase : Phase side option past l) (records : Records s l)
    (known : ∀ cmd ∈ cmds, cmd.2 ∈ Ledger.supported) :
    ∃ m, Records (respondAll cmds s) m ∧ Phase side option (past ++ cmds) m := by
  induction cmds generalizing past s l with
  | nil => exact ⟨l,records,by simpa using phase⟩
  | cons cmd cmds ih =>
    have answered := respondTelnetOption_records records cmd.1 cmd.2
    have stepped := phase.step cmd.1 cmd.2
    unfold Ledger.respond at answered
    rw [if_pos (known cmd List.mem_cons_self)] at answered
    obtain ⟨m,last,reached⟩ := ih stepped answered
      fun cmd member => known cmd (List.mem_cons_of_mem _ member)
    exact ⟨m,last,by simpa using reached⟩

/-- Whenever a side of an option is on, the server has agreed to it, and that is
its latest word about it exactly if the client has not withdrawn the option
after asking for it. -/
theorem agreement_iff_not_withdrawn (s : Session) (cmds : List (OptCode × UInt8))
    (complete : ∀ reply ∈ s.replies, reply = .all) (fresh : s.wire = [])
    (known : ∀ cmd ∈ cmds, cmd.2 ∈ Ledger.supported) (side : Side) (option : UInt8)
    (on : ((respondAll cmds (sessionStart s)).tnoptions option).flag side) :
    (side.accept,option) ∈ transmitted (respondAll cmds (sessionStart s)) ∧
      (latest side option (transmitted (respondAll cmds (sessionStart s))) = some side.accept ↔
        ¬[(side.ask,option),(side.withdraw,option)].Sublist cmds) := by
  obtain ⟨m,records,phase⟩ := (Phase.start side option).run
    (sessionStart_records complete fresh) known
  rw [records.flags] at on
  rw [records.announced]
  unfold latest
  cases phase with
  | untouched silent off before =>
    rw [off] at on
    contradiction
  | agreed asked kept enabled before =>
    have member : (side.accept,option) ∈ announcements side option m.log.entries := by
      rw [before]
      exact List.mem_cons_self
    rw [before]
    exact ⟨List.mem_of_mem_filter member,iff_of_true rfl kept⟩
  | withdrawn undone before =>
    have member : (side.accept,option) ∈ announcements side option m.log.entries := by
      rw [before]
      exact List.mem_cons_self
    rw [before]
    refine ⟨List.mem_of_mem_filter member,iff_of_false ?_ (not_not.mpr undone)⟩
    cases side <;> exact fun same => nomatch Option.some.inj same

theorem respondAll_records {s : Session} {l : Ledger} (records : Records s l)
    (cmds : List (OptCode × UInt8)) :
    Records (respondAll cmds s) (cmds.foldl (fun l cmd => l.respond cmd.1 cmd.2) l) := by
  induction cmds generalizing s l with
  | nil => exact records
  | cons cmd cmds ih => exact ih (respondTelnetOption_records records cmd.1 cmd.2)

theorem agreement_iff_not_withdrawn_echo :
    latest .CLIENT TELOPT_ECHO (transmitted (respondAll [(.WILL,TELOPT_ECHO)]
      (sessionStart (processStart ⟨⟨0,0,0xBD,0⟩,[]⟩)))) = some .DO := by
  have records := respondAll_records (sessionStart_records (s := processStart ⟨⟨0,0,0xBD,0⟩,[]⟩)
    (fun _ member => absurd member List.not_mem_nil) rfl) [(.WILL,TELOPT_ECHO)]
  have on : ((respondAll [(.WILL,TELOPT_ECHO)] (sessionStart
      (processStart ⟨⟨0,0,0xBD,0⟩,[]⟩))).tnoptions TELOPT_ECHO).flag .CLIENT := by
    rw [records.flags]
    decide
  exact (agreement_iff_not_withdrawn (processStart ⟨⟨0,0,0xBD,0⟩,[]⟩) [(.WILL,TELOPT_ECHO)]
    (fun _ member => absurd member List.not_mem_nil) rfl (by decide) .CLIENT TELOPT_ECHO on).2.mpr
    (by decide)

/-- WILL ECHO, WONT ECHO and WILL ECHO again: the option is on, the last word was
DONT ECHO. -/
theorem asked_again_not_announced : ¬∀ (s : Session) (cmds : List (OptCode × UInt8)),
    (∀ reply ∈ s.replies, reply = .all) → s.wire = [] →
    (∀ cmd ∈ cmds, cmd.2 ∈ Ledger.supported) → ∀ side option,
    ((respondAll cmds (sessionStart s)).tnoptions option).flag side →
    latest side option (transmitted (respondAll cmds (sessionStart s))) = some side.accept := by
  intro always
  have records := respondAll_records (sessionStart_records (s := processStart ⟨⟨0,0,0xBD,0⟩,[]⟩)
    (fun _ member => absurd member List.not_mem_nil) rfl)
    [(.WILL,TELOPT_ECHO),(.WONT,TELOPT_ECHO),(.WILL,TELOPT_ECHO)]
  have said := always (processStart ⟨⟨0,0,0xBD,0⟩,[]⟩)
    [(.WILL,TELOPT_ECHO),(.WONT,TELOPT_ECHO),(.WILL,TELOPT_ECHO)]
    (fun _ member => absurd member List.not_mem_nil) rfl (by decide) .CLIENT TELOPT_ECHO
    (by rw [records.flags]; decide)
  rw [records.announced] at said
  exact absurd said (by decide)

end SerialIp
