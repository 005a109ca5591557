import SerialIp.Negotiation

/-! The mode of each direction against the option table. Both are written by the
responders, in different branches; no command and no failed send parts them, and no
command touches the entry of another option. -/
namespace SerialIp
open Session

/-- A transmission about `option`: at most its sent bits change. -/
structure Marks (option : UInt8) (s t : Session) : Prop where
  tnmode : t.tnmode = s.tnmode
  flags : ∀ key side, (t.tnoptions key).flag side = (s.tnoptions key).flag side
  elsewhere : ∀ key, key ≠ option → t.tnoptions key = s.tnoptions key

theorem Marks.trans {option : UInt8} {a b c : Session} (first : Marks option a b)
    (second : Marks option b c) : Marks option a c :=
  ⟨second.tnmode.trans first.tnmode,fun key side => (second.flags key side).trans (first.flags key side),
    fun key different => (second.elsewhere key different).trans (first.elsewhere key different)⟩

theorem Transmits.marks {s t : Session} (transmits : Transmits s t) (option : UInt8) :
    Marks option s t := by
  refine ⟨?_,?_,?_⟩
  · unfold Transmits at transmits
    rw [transmits]
  · intro key side
    rw [transmits.tnoptions]
  · intro key _
    rw [transmits.tnoptions]

theorem markTelnetOptionAsSent_marks {option : UInt8} {s t : Session} (marks : Marks option s t)
    (optcode : OptCode) : Marks option s (markTelnetOptionAsSent optcode option t) := by
  refine ⟨?_,?_,?_⟩
  · rw [← marks.tnmode]
    cases optcode <;> rfl
  · intro key side
    rw [markTelnetOptionAsSent_flag]
    exact marks.flags key side
  · intro key different
    rw [← marks.elsewhere key different]
    cases optcode <;> exact Function.update_of_ne different _ _

theorem sendTelnetOption_marks (optcode : OptCode) (option : UInt8) (s : Session) :
    Marks option s (sendTelnetOption optcode option s).2 := by
  apply sendTelnetOption_keeps (Marks option s)
  · intro bytes t marks
    exact marks.trans ((appendToSabre_transmits bytes t).marks option)
  · intro t marks
    exact marks.trans ((writeSabre_transmits t).marks option)
  · intro t marks
    exact markTelnetOptionAsSent_marks marks optcode
  · exact (Transmits.refl s).marks option

/-- The mode of a direction is binary exactly when the flag for it is set, and
only supported options are ever agreed on. -/
structure Consistent (s : Session) : Prop where
  modes : ∀ side, s.tnmode side = .BINARY ↔ (s.tnoptions TELOPT_BINARY).flag side
  supported : ∀ option side, (s.tnoptions option).flag side → option ∈ Ledger.supported

theorem Consistent.marks {option : UInt8} {s t : Session} (consistent : Consistent s)
    (marks : Marks option s t) : Consistent t := by
  refine ⟨?_,?_⟩
  · intro side
    rw [marks.tnmode,marks.flags]
    exact consistent.modes side
  · intro key side
    rw [marks.flags]
    exact consistent.supported key side

theorem setFlag_tnmode (side : Side) (value : Bool) (option : UInt8) (s : Session) :
    (s.setOption option (TelnetOptions.setFlag side value)).tnmode = s.tnmode := rfl

theorem Consistent.turnKnown {s : Session} (consistent : Consistent s) {option : UInt8}
    (other : option ≠ TELOPT_BINARY) (known : option ∈ Ledger.supported) (side : Side)
    (value : Bool) : Consistent (s.setOption option (TelnetOptions.setFlag side value)) := by
  refine ⟨?_,?_⟩
  · intro direction
    rw [setFlag_flag,if_neg (fun both => other both.2.symm),setFlag_tnmode]
    exact consistent.modes direction
  · intro key direction
    rw [setFlag_flag]
    split
    · rename_i both
      intro _
      rw [both.2]
      exact known
    · exact consistent.supported key direction

theorem Consistent.turnBinary {s : Session} (consistent : Consistent s) (side : Side)
    (value : Bool) : Consistent ((s.setOption TELOPT_BINARY (TelnetOptions.setFlag side value)).setTnmode
      side (if value then .BINARY else .ASCII)) := by
  have flags (key : UInt8) (direction : Side) :
      (((s.setOption TELOPT_BINARY (TelnetOptions.setFlag side value)).setTnmode side
        (if value then .BINARY else .ASCII)).tnoptions key).flag direction =
      if direction = side ∧ key = TELOPT_BINARY then value else (s.tnoptions key).flag direction :=
    setFlag_flag side direction value TELOPT_BINARY key s
  refine ⟨?_,?_⟩
  · intro direction
    rw [flags]
    by_cases same : direction = side
    · subst direction
      simp only [setTnmode,Function.update_self,and_self,if_true]
      cases value <;> decide
    · simp only [setTnmode,Function.update_of_ne same,same,false_and,if_false]
      exact consistent.modes direction
  · intro key direction
    rw [flags]
    split
    · rename_i both
      intro _
      rw [both.2]
      decide
    · exact consistent.supported key direction

theorem answerKnown_consistent {s : Session} (consistent : Consistent s) (optcode : OptCode)
    {option : UInt8} (other : option ≠ TELOPT_BINARY) (known : option ∈ Ledger.supported) :
    Consistent (answerKnown optcode option s).2 := by
  unfold answerKnown
  rw [answerTelnetOption_eq]
  split
  · exact consistent
  · exact (consistent.marks (sendTelnetOption_marks _ _ _)).turnKnown other known _ _

theorem answerBinary_consistent {s : Session} (consistent : Consistent s) (optcode : OptCode) :
    Consistent (answerBinary optcode TELOPT_BINARY s).2 := by
  unfold answerBinary
  rw [answerTelnetOption_eq]
  split
  · exact consistent
  · exact (consistent.marks (sendTelnetOption_marks _ _ _)).turnBinary _ _

theorem respondKnownTelnetOption_consistent {s : Session} (consistent : Consistent s)
    (optcode : OptCode) {option : UInt8} (known : option ∈ Ledger.supported) :
    Consistent (respondKnownTelnetOption optcode option s).2 := by
  unfold respondKnownTelnetOption
  split
  · rename_i binary
    rw [binary]
    exact answerBinary_consistent consistent optcode
  · rename_i other
    exact answerKnown_consistent consistent optcode other known

theorem Consistent.notice {s : Session} (consistent : Consistent s) (entry : Notice) :
    Consistent (s.notice entry) := ⟨consistent.modes,consistent.supported⟩

theorem respondTelnetOption_consistent {s : Session} (consistent : Consistent s)
    (optcode : OptCode) (option : UInt8) : Consistent (respondTelnetOption optcode option s).2 := by
  have noticed := consistent.notice (.received optcode option)
  unfold respondTelnetOption
  dsimp only
  split
  · rename_i known
    have member : option ∈ Ledger.supported := by
      rcases known with rfl | rfl | rfl <;> decide
    exact respondKnownTelnetOption_consistent noticed optcode member
  · split
    · rename_i logout
      have member : option ∈ Ledger.supported := by
        rw [logout]
        decide
      have answered := respondKnownTelnetOption_consistent noticed optcode member
      split
      · exact ⟨answered.modes,answered.supported⟩
      · exact answered
    · split
      · rename_i binary
        subst binary
        exact answerBinary_consistent noticed optcode
      · exact noticed.marks (sendTelnetOption_marks _ _ _)

theorem telnetInit_consistent (s : Session) : Consistent (telnetInit s) := by
  apply telnetInit_keeps Consistent
  · intro optcode option t consistent
    exact consistent.marks (sendTelnetOption_marks optcode option t)
  · refine ⟨?_,?_⟩
    · intro side
      cases side <;> simp [resetGlobals,TelnetOptions.flag]
    · intro option side set
      cases side <;> simp [resetGlobals,TelnetOptions.flag] at set

theorem respondAll_consistent {s : Session} (consistent : Consistent s)
    (commands : List (OptCode × UInt8)) : Consistent (respondAll commands s) := by
  induction commands generalizing s with
  | nil => exact consistent
  | cons command commands ih => exact ih (respondTelnetOption_consistent consistent _ _)

theorem respondTelnetOption_elsewhere (optcode : OptCode) {option key : UInt8}
    (different : key ≠ option) (s : Session) :
    (respondTelnetOption optcode option s).2.tnoptions key = s.tnoptions key := by
  have responds : Responds option fun t => t.tnoptions key = s.tnoptions key := by
    refine ⟨?_,?_,?_,?_⟩
    · intro code t same
      exact ((sendTelnetOption_marks code option t).elsewhere key different).trans same
    · intro side value t same
      exact (Function.update_of_ne different _ _).trans same
    · intro side mode t same
      exact same
    · intro t same
      exact same
  exact responds.respond optcode rfl

/-- Whatever commands arrive after telnet_init and however each write() ends: modes
and flags of the Binary option agree, no other than the five supported options is
ever on, and a command for one option leaves the entries of all others alone. -/
theorem modes_follow_flags (s : Session) (commands : List (OptCode × UInt8)) :
    let t := respondAll commands (telnetInit s)
    (t.tnmode .CLIENT = .BINARY ↔ (t.tnoptions TELOPT_BINARY).client) ∧
      (t.tnmode .SERVER = .BINARY ↔ (t.tnoptions TELOPT_BINARY).server) ∧
      (∀ option, option ∉ Ledger.supported →
        (t.tnoptions option).client = false ∧ (t.tnoptions option).server = false) ∧
      ∀ optcode option key, key ≠ option →
        (respondTelnetOption optcode option t).2.tnoptions key = t.tnoptions key := by
  have consistent := respondAll_consistent (telnetInit_consistent s) commands
  refine ⟨consistent.modes .CLIENT,consistent.modes .SERVER,?_,?_⟩
  · intro option unknown
    have off (side : Side) : ((respondAll commands (telnetInit s)).tnoptions option).flag side = false := by
      apply Bool.eq_false_iff.mpr
      intro set
      exact unknown (consistent.supported option side set)
    exact ⟨off .CLIENT,off .SERVER⟩
  · intro optcode option key different
    exact respondTelnetOption_elsewhere optcode different _

end SerialIp
