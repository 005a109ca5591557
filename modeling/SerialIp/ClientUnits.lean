import SerialIp.ComPort
import SerialIp.Library.Framing

/-! What a client reads: data bytes, doubled IACs, commands of three bytes and
suboptions, recognised one byte at a time. -/
namespace SerialIp
open Library Library.Framing

inductive ClientUnit
  | data (byte : UInt8) (plain : byte ≠ IAC)
  | quoted
  | negotiation (optcode : OptCode) (option : UInt8)
  | suboption (body : List UInt8)

def ClientUnit.encode : ClientUnit → List UInt8
  | data byte _ => [byte]
  | quoted => [IAC,IAC]
  | negotiation optcode option => [IAC,optcode.byte,option]
  | suboption body => [IAC,SB] ++ stuff IAC body ++ [IAC,SE]

inductive ClientPhase
  | data
  | iac
  | option
  | suboption
  | suboptionIac
  deriving DecidableEq

def ClientPhase.next : ClientPhase → UInt8 → Option ClientPhase
  | data,byte => some (if byte = IAC then iac else data)
  | iac,byte =>
    if byte = IAC then some data
    else if byte = SB then some suboption
    else (OptCode.ofByte? byte).map fun _ => option
  | option,_ => some data
  | suboption,byte => some (if byte = IAC then suboptionIac else suboption)
  | suboptionIac,byte =>
    if byte = IAC then some suboption else if byte = SE then some data else none

abbrev client : Code ClientPhase UInt8 := ⟨.data,ClientPhase.next⟩

theorem OptCode.byte_of_ofByte? {byte : UInt8} {optcode : OptCode}
    (known : OptCode.ofByte? byte = some optcode) : byte = optcode.byte := by
  unfold OptCode.ofByte? at known
  split_ifs at known with will do' dont wont
  · cases known
    exact will
  · cases known
    exact do'
  · cases known
    exact dont
  · cases known
    exact wont

/-- A phase in which an IAC stands for nothing but the begin of a pair. -/
theorem read_stuff (phase quoting : ClientPhase) (first : phase.next IAC = some quoting)
    (second : quoting.next IAC = some phase)
    (plain : ∀ byte, byte ≠ IAC → phase.next byte = some phase) (xs : List UInt8) :
    client.read phase (stuff IAC xs) = some phase := by
  induction xs with
  | nil => rfl
  | cons x xs ih =>
    by_cases marker : x = IAC
    · subst x
      rw [stuff_marker]
      simp only [Code.read,first,second,Option.bind_some]
      exact ih
    · rw [stuff_other marker]
      simp only [Code.read,plain x marker,Option.bind_some]
      exact ih

theorem stuff_completes (xs : List UInt8) : client.Completes .data (stuff IAC xs) :=
  read_stuff .data .iac rfl rfl (fun _ plain => congrArg some (if_neg plain)) xs

/-- What a unit looks like that has been read up to a phase. -/
def ClientPhase.Begun : ClientPhase → List UInt8 → Prop
  | data,front => ∃ unit : ClientUnit, front = unit.encode
  | iac,front => front = [IAC]
  | option,front => ∃ optcode : OptCode, front = [IAC,optcode.byte]
  | suboption,front => ∃ body, front = [IAC,SB] ++ stuff IAC body
  | suboptionIac,front => ∃ body, front = [IAC,SB] ++ stuff IAC body ++ [IAC]

theorem ClientPhase.Begun.next {phase next : ClientPhase} {front : List UInt8} {byte : UInt8}
    (begun : phase.Begun front) (inside : phase ≠ .data) (step : phase.next byte = some next) :
    next.Begun (front ++ [byte]) := by
  cases phase with
  | data => exact absurd rfl inside
  | iac =>
    have front : front = [IAC] := begun
    subst front
    simp only [ClientPhase.next] at step
    split_ifs at step with marker sub
    · cases step
      exact ⟨.quoted,by rw [marker]; rfl⟩
    · cases step
      exact ⟨[],by rw [sub]; rfl⟩
    · obtain ⟨optcode,known,rfl⟩ := Option.map_eq_some_iff.mp step
      exact ⟨optcode,by rw [OptCode.byte_of_ofByte? known]; rfl⟩
  | option =>
    obtain ⟨optcode,rfl⟩ := begun
    cases step
    exact ⟨.negotiation optcode byte,rfl⟩
  | suboption =>
    obtain ⟨body,rfl⟩ := begun
    cases step
    split_ifs with marker
    · exact ⟨body,by rw [marker]⟩
    · refine ⟨body ++ [byte],?_⟩
      rw [stuff_append,stuff_other marker,List.append_assoc]
      rfl
  | suboptionIac =>
    obtain ⟨body,rfl⟩ := begun
    simp only [ClientPhase.next] at step
    split_ifs at step with marker se
    · cases step
      refine ⟨body ++ [IAC],?_⟩
      rw [marker,stuff_append]
      simp
    · cases step
      exact ⟨.suboption body,by rw [se]; simp [ClientUnit.encode]⟩

theorem opening_begun {front : List UInt8} {phase : ClientPhase}
    (opening : client.Opening front phase) : phase.Begun front := by
  induction opening with
  | @first byte phase step =>
    cases step
    split_ifs with marker
    · rw [marker]
      rfl
    · exact ⟨.data byte marker,rfl⟩
  | further _ inside step ih => exact ih.next inside step

theorem client_recognises : client.Recognises ClientUnit.encode := by
  refine ⟨?_,?_⟩
  · intro unit
    cases unit with
    | data byte plain =>
      have stuffed := stuff_completes [byte]
      rw [stuff_other plain] at stuffed
      exact stuffed
    | quoted => rfl
    | negotiation optcode option => cases optcode <;> rfl
    | suboption body =>
      have inside : client.read .suboption (stuff IAC body) = some .suboption :=
        read_stuff .suboption .suboptionIac rfl rfl (fun _ plain => congrArg some (if_neg plain)) body
      have whole : client.read .suboption (stuff IAC body ++ [IAC,SE]) = some .data := by
        rw [Code.read_append,inside]
        rfl
      exact whole
  · intro front phase opening
    have begun := opening_begun opening
    cases phase with
    | data =>
      obtain ⟨unit,rfl⟩ := begun
      exact ⟨unit,List.prefix_refl _,fun _ => rfl⟩
    | iac => exact ⟨.quoted,⟨[IAC],by rw [show front = [IAC] from begun]; rfl⟩,nofun⟩
    | option =>
      obtain ⟨optcode,rfl⟩ := begun
      exact ⟨.negotiation optcode 0,⟨[0],rfl⟩,nofun⟩
    | suboption =>
      obtain ⟨body,rfl⟩ := begun
      exact ⟨.suboption body,⟨[IAC,SE],rfl⟩,nofun⟩
    | suboptionIac =>
      obtain ⟨body,rfl⟩ := begun
      exact ⟨.suboption body,⟨[SE],by simp [ClientUnit.encode]⟩,nofun⟩

theorem optstr_completes (optcode : OptCode) (option : UInt8) :
    client.Completes .data (optstr optcode option) :=
  client_recognises.complete (.negotiation optcode option)

/-- A suboption is whole unless its length limit cuts a doubled IAC in two. -/
theorem suboption_completes {suboptcode : UInt8} {content kept : List UInt8}
    (plain : suboptcode ≠ IAC) (uncut : (stuff IAC content).take 253 = stuff IAC kept) :
    client.Completes .data (suboption suboptcode content) := by
  have unit : suboption suboptcode content =
      ClientUnit.encode (.suboption (TELOPT_COM_PORT_OPTION::suboptcode::kept)) := by
    simp only [suboption,ClientUnit.encode]
    rw [uncut,stuff_other (by decide),stuff_other plain]
    rfl
  rw [unit]
  exact client_recognises.complete _

end SerialIp
