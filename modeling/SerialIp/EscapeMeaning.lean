import SerialIp.EscapeSequence

/-! What escape sequences mean, and what escape_sequence_copy makes of them. An octal
escape of fewer than three digits takes the byte behind it along, the terminating NUL
too, and the letters among the hexadecimal digits count from '0'. -/
namespace SerialIp.Escape
open Library Library.CString

/-- An escape sequence, or a byte that is not part of one. -/
inductive Part
  | octal (digits : List UInt8)
  | hex (digits : List UInt8)
  | escaped (c : UInt8)
  | plain (c : UInt8)
  deriving DecidableEq

/-- The letters for bell, backspace, form feed, new line, carriage return and the tabs. -/
def controls : List (UInt8 × UInt8) :=
  [(97,7),(98,8),(102,12),(110,10),(114,13),(116,9),(118,11)]

def octalValue (digits : List UInt8) (value : Nat) : Nat :=
  digits.foldl (fun n c => n * 8 + (c - 48).toNat) value

def hexDigit (c : UInt8) : Nat :=
  if c ≤ 57 then (c - 48).toNat else if c ≤ 70 then (c - 55).toNat else (c - 87).toNat

def hexValue (digits : List UInt8) : Nat := digits.foldl (fun n c => n * 16 + hexDigit c) 0

namespace Part

def text : Part → List UInt8
  | octal digits => 92::48::digits
  | hex digits => 92::120::digits
  | escaped c => [92,c]
  | plain c => [c]

def byte : Part → UInt8
  | octal digits => UInt8.ofNat (octalValue digits 0)
  | hex digits => UInt8.ofNat (if digits = [] then 120 else hexValue digits)
  | escaped c => (controls.lookup c).getD c
  | plain c => c

end Part

/-- As many digits as there are, but not more than `most`. -/
structure Run (digit : UInt8 → Bool) (most : Nat) (digits rest : List UInt8) : Prop where
  all : ∀ c ∈ digits, digit c = true
  short : digits.length ≤ most
  ends : digits.length < most → ∀ c ∈ rest.head?, digit c = false

/-- With this rest behind it, the part ends where it does. -/
def Part.Cuts (rest : List UInt8) : Part → Prop
  | octal digits => Run isOctal 3 digits rest
  | hex digits => Run isxdigit 2 digits rest
  | escaped c => c ≠ 48 ∧ c ≠ 120
  | plain c => c ≠ 92

/-- The part at the beginning of a string; a backslash with nothing behind it is plain. -/
def firstPart (c : UInt8) (rest : List UInt8) : Part :=
  if c = 92 then
    match rest with
    | [] => .plain 92
    | d::text =>
      if d = 48 then .octal ((text.take 3).takeWhile isOctal)
      else if d = 120 then .hex ((text.take 2).takeWhile isxdigit)
      else .escaped d
  else .plain c

def parts : List UInt8 → List Part
  | [] => []
  | c::rest => firstPart c rest::parts (rest.drop ((firstPart c rest).text.length - 1))
termination_by s => s.length
decreasing_by
  rw [List.length_drop,List.length_cons]
  omega

theorem run_take (digit : UInt8 → Bool) (most : Nat) (text : List UInt8) :
    Run digit most ((text.take most).takeWhile digit)
        (text.drop ((text.take most).takeWhile digit).length) ∧
      text = (text.take most).takeWhile digit ++
        text.drop ((text.take most).takeWhile digit).length := by
  induction most generalizing text with
  | zero => exact ⟨⟨nofun,Nat.zero_le _,nofun⟩,rfl⟩
  | succ most ih =>
    cases text with
    | nil => exact ⟨⟨nofun,Nat.zero_le _,nofun⟩,rfl⟩
    | cons c text =>
      obtain ⟨run,split⟩ := ih text
      rw [List.take_succ_cons]
      cases here : digit c with
      | false =>
        rw [List.takeWhile_cons_of_neg (by simp [here])]
        refine ⟨⟨nofun,Nat.zero_le _,fun _ d first => ?_⟩,rfl⟩
        obtain rfl := Option.some.inj first
        exact here
      | true =>
        rw [List.takeWhile_cons_of_pos here,List.length_cons,List.drop_succ_cons]
        refine ⟨⟨?_,Nat.succ_le_succ run.short,fun few => run.ends (Nat.lt_of_succ_lt_succ few)⟩,
          congrArg (c :: ·) split⟩
        exact List.forall_mem_cons.mpr ⟨here,run.all⟩

theorem firstPart_cuts (c : UInt8) (rest : List UInt8) : c = 92 ∧ rest = [] ∨
    c::rest = (firstPart c rest).text ++ rest.drop ((firstPart c rest).text.length - 1) ∧
      (firstPart c rest).Cuts (rest.drop ((firstPart c rest).text.length - 1)) := by
  unfold firstPart
  split
  · rename_i back
    subst back
    cases rest with
    | nil => exact Or.inl ⟨rfl,rfl⟩
    | cons d text =>
      right
      dsimp only
      split
      · rename_i zero
        subst zero
        obtain ⟨run,split⟩ := run_take isOctal 3 text
        exact ⟨congrArg (92::48:: ·) split,run⟩
      split
      · rename_i x
        subst x
        obtain ⟨run,split⟩ := run_take isxdigit 2 text
        exact ⟨congrArg (92::120:: ·) split,run⟩
      · rename_i octal hex
        exact ⟨rfl,octal,hex⟩
  · rename_i other
    exact Or.inr ⟨rfl,other⟩

section
variable {m digits rest : List UInt8} {s : Nat}

/-- What ends a run is the rest of the string, or its NUL. -/
theorem Run.stops {digit : UInt8 → Bool} {most : Nat} (run : Run digit most digits rest)
    (few : digits.length < most) (null : digit 0 = false) (spans : Spans m s (rest ++ [0])) :
    ∃ c, m[s]? = some c ∧ digit c = false := by
  cases rest with
  | nil => exact ⟨0,spans.head,null⟩
  | cons c rest => exact ⟨c,spans.head,run.ends few c rfl⟩

theorem Run.tail {digit : UInt8 → Bool} {most : Nat} {c : UInt8}
    (run : Run digit most (c::digits) rest) :
    ∃ less, most = less + 1 ∧ digit c = true ∧ Run digit less digits rest := by
  obtain ⟨all,short,ends⟩ := run
  rw [List.length_cons] at short ends
  obtain ⟨first,later⟩ := List.forall_mem_cons.mp all
  obtain ⟨less,rfl⟩ := Nat.exists_eq_add_of_le' (Nat.le_trans (Nat.le_add_left 1 _) short)
  exact ⟨less,rfl,first,later,Nat.le_of_succ_le_succ short,
    fun few => ends (Nat.succ_lt_succ few)⟩

/-- A loop that runs out of digits before its turns counts one byte more. -/
theorem octalLoop_run {turns value len : Nat} (run : Run isOctal turns digits rest)
    (spans : Spans m s (digits ++ (rest ++ [0]))) : octalLoop m turns s value len =
      some (octalValue digits value,
        len + digits.length + if digits.length < turns then 1 else 0) := by
  induction digits generalizing turns s value len with
  | nil =>
    cases turns with
    | zero => rfl
    | succ turns =>
      obtain ⟨c,found,other⟩ := run.stops (Nat.succ_pos turns) rfl spans
      rw [octalLoop,found]
      change (if isOctal c = true then _ else _) = _
      rw [if_neg (by simp [other])]
      rfl
  | cons c digits ih =>
    obtain ⟨less,rfl,first,later⟩ := run.tail
    have found := spans.head
    rw [octalLoop,found]
    change (if isOctal c = true then _ else _) = _
    rw [if_pos first,ih later spans.tail,List.length_cons]
    simp only [Nat.add_lt_add_iff_right,Option.some.injEq,Prod.mk.injEq]
    exact ⟨rfl,by omega⟩

def lowered (c : UInt8) : UInt8 := if 65 ≤ c && c ≤ 90 then c + 32 else c

theorem lower_spans {c : UInt8} (spans : Spans m s (c::rest)) :
    ∃ m', lower m s = some m' ∧ Spans m' s (lowered c::rest) ∧ (c ≤ 57 → m' = m) := by
  unfold lower lowered
  rw [spans.head]
  cases upper : (65 ≤ c && c ≤ 90 : Bool) with
  | false => exact ⟨m,if_neg (by simp [upper]),by simpa using spans,fun _ => rfl⟩
  | true =>
    have whole : Spans m s ([] ++ c::rest) := spans
    obtain ⟨m',stored,after⟩ := whole.store (c := c + 32)
    refine ⟨m',(if_pos upper).trans stored,after,fun small => ?_⟩
    simp only [Bool.and_eq_true,decide_eq_true_eq] at upper
    exact absurd (UInt8.le_trans upper.1 small) (by decide)

def readHex (digits : List UInt8) (value : Nat) : Nat :=
  digits.foldl (fun n c => n * 16 + (lowered c - 48).toNat) value

theorem hexLoop_run {turns : Nat} (value len : Nat) (run : Run isxdigit turns digits rest)
    (spans : Spans m s (digits ++ (rest ++ [0]))) : ∃ m',
      hexLoop turns m s value len = some (m',readHex digits value,len + digits.length) ∧
      Spans m' (s + digits.length) (rest ++ [0]) ∧ ((∀ c ∈ digits, c ≤ 57) → m' = m) := by
  induction digits generalizing turns m s value len with
  | nil =>
    refine ⟨m,?_,spans,fun _ => rfl⟩
    cases turns with
    | zero => rfl
    | succ turns =>
      obtain ⟨c,found,other⟩ := run.stops (Nat.succ_pos turns) rfl spans
      rw [hexLoop,found]
      change (if isxdigit c = true then _ else _) = _
      rw [if_neg (by simp [other])]
      rfl
  | cons c digits ih =>
    obtain ⟨less,rfl,first,later⟩ := run.tail
    obtain ⟨lowerM,lowers,after,same⟩ := lower_spans spans
    obtain ⟨m',loops,rest,kept⟩ := ih _ _ later after.tail
    refine ⟨m',?_,?_,fun decimal => ?_⟩
    · have found := spans.head
      have again := after.head
      rw [hexLoop,found]
      change (if isxdigit c = true then _ else _) = _
      rw [if_pos first,lowers]
      change (lowerM[s]? >>= _) = _
      rw [again]
      change hexLoop less lowerM (s + 1) _ _ = _
      refine loops.trans ?_
      rw [List.length_cons]
      simp only [Option.some.injEq,Prod.mk.injEq,true_and]
      exact ⟨rfl,by omega⟩
    · rw [List.length_cons,Nat.add_comm digits.length,← Nat.add_assoc]
      exact rest
    · obtain ⟨here,others⟩ := List.forall_mem_cons.mp decimal
      rw [kept others,same here]

end

namespace Part

/-- The byte that a turn of the loop stores for the part. -/
def stored : Part → UInt8
  | octal digits => UInt8.ofNat (octalValue digits 0)
  | hex digits => UInt8.ofNat (if digits = [] then 120 else readHex digits 0)
  | escaped c => escapeSequence c
  | plain c => c

/-- An octal escape that could have had more digits. -/
def Short : Part → Prop
  | octal digits => digits.length < 3
  | hex _ | escaped _ | plain _ => False

instance : (part : Part) → Decidable part.Short
  | octal digits => inferInstanceAs (Decidable (digits.length < 3))
  | hex _ | escaped _ | plain _ => inferInstanceAs (Decidable False)

/-- An octal escape has all its digits, and a hexadecimal one no letters among them. -/
def Exact : Part → Prop
  | octal digits => digits.length = 3
  | hex digits => ∀ c ∈ digits, c ≤ 57
  | escaped _ | plain _ => True

instance : (part : Part) → Decidable part.Exact
  | octal digits => inferInstanceAs (Decidable (digits.length = 3))
  | hex digits => inferInstanceAs (Decidable (∀ c ∈ digits, c ≤ 57))
  | escaped _ | plain _ => inferInstanceAs (Decidable True)

theorem text_pos (part : Part) : 0 < part.text.length := by
  cases part <;> exact Nat.succ_pos _

end Part

theorem forall_byte {holds : UInt8 → Prop} (all : ∀ n < 256, holds (UInt8.ofNat n)) (c : UInt8) :
    holds c := by
  rw [← UInt8.ofNat_toNat (x := c)]
  exact all c.toNat c.toNat_lt

theorem escapeSequence_eq : ∀ c, escapeSequence c = (controls.lookup c).getD c :=
  forall_byte (by decide +kernel)

theorem lowered_digit : ∀ c, isxdigit c = true →
    (lowered c - 48).toNat = hexDigit c + (if c ≤ 57 then 0 else 39) ∧ hexDigit c < 16 :=
  forall_byte (by decide +kernel)

/-- A letter among at most two digits spoils the byte. -/
theorem readHex_eq_iff {digits rest : List UInt8} (run : Run isxdigit 2 digits rest) :
    UInt8.ofNat (readHex digits 0) = UInt8.ofNat (hexValue digits) ↔ ∀ c ∈ digits, c ≤ 57 := by
  obtain ⟨all,short,_⟩ := run
  rw [← UInt8.toNat_inj,UInt8.toNat_ofNat',UInt8.toNat_ofNat']
  match digits with
  | [] => exact iff_of_true rfl nofun
  | [c] =>
    obtain ⟨read,_⟩ := lowered_digit c (all c List.mem_cons_self)
    simp only [readHex,hexValue,List.foldl_cons,List.foldl_nil,read]
    split_ifs with decimal
    · simp [decimal]
    · exact iff_of_false (by omega) (fun both => decimal (both c (by simp)))
  | [c,d] =>
    obtain ⟨read,_⟩ := lowered_digit c (all c List.mem_cons_self)
    obtain ⟨read',_⟩ := lowered_digit d (all d (by simp))
    simp only [readHex,hexValue,List.foldl_cons,List.foldl_nil,read,read']
    split_ifs with decimal decimal'
    · simp [decimal,decimal']
    · exact iff_of_false (by omega) (fun both => decimal' (both d (by simp)))
    · exact iff_of_false (by omega) (fun both => decimal (both c (by simp)))
    · exact iff_of_false (by omega) (fun both => decimal (both c (by simp)))
  | _::_::_::_ => simp at short

section
variable {t : Copying} {part : Part} {rest : List UInt8}

theorem Copying.put_stores {s1 s2 : Nat} {dest source : List UInt8} (c : UInt8)
    (room : s1 < dest.length) :
    Copying.put c ⟨s1,s2,dest,source⟩ = some ⟨s1 + 1,s2,dest.set s1 c,source⟩ := by
  unfold Copying.put store
  dsimp only
  rw [if_pos room]
  rfl

theorem retrieveOctalEscapeSequence_run {m digits : List UInt8} {s : Nat}
    (run : Run isOctal 3 digits rest) (spans : Spans m (s + 1) (digits ++ (rest ++ [0]))) :
    retrieveOctalEscapeSequence m s = some (octalValue digits 0,
      1 + digits.length + if digits.length < 3 then 1 else 0) := by
  unfold retrieveOctalEscapeSequence
  rw [octalLoop_run run spans]
  change some (if _ = 1 then _ else _,_) = _
  rw [if_neg]
  split_ifs <;> omega

theorem retrieveHexEscapeSequence_run {m digits : List UInt8} {s : Nat}
    (run : Run isxdigit 2 digits rest) (spans : Spans m (s + 1) (digits ++ (rest ++ [0]))) : ∃ m',
      retrieveHexEscapeSequence m s =
        some (m',if digits = [] then 120 else readHex digits 0,1 + digits.length) ∧
      Spans m' (s + 1 + digits.length) (rest ++ [0]) ∧ ((∀ c ∈ digits, c ≤ 57) → m' = m) := by
  obtain ⟨m',loops,after,same⟩ := hexLoop_run 0 1 run spans
  refine ⟨m',?_,after,same⟩
  unfold retrieveHexEscapeSequence
  rw [loops]
  change some (m',if 1 + digits.length = 1 then _ else _,_) = _
  simp

theorem turn_escape {c : UInt8} {cells : List UInt8} (clean : c ≠ 0)
    (spans : Spans t.source t.s2 (92::c::cells)) :
    turn t = (Copying.escape c {t with s2 := t.s2 + 1}).map some := by
  have found := spans.head
  have next := spans.tail.head
  unfold turn
  rw [found]
  change (t.source[t.s2 + 1]? >>= _) = _
  rw [next]
  exact if_neg clean

theorem turn_octal {digits : List UInt8} (run : Run isOctal 3 digits rest)
    (room : t.s1 < t.dest.length)
    (spans : Spans t.source t.s2 (92::48::(digits ++ (rest ++ [0])))) :
    turn t = some (some ⟨t.s1 + 1,t.s2 + (digits.length + 2) + if digits.length < 3 then 1 else 0,
      t.dest.set t.s1 (UInt8.ofNat (octalValue digits 0)),t.source⟩) := by
  have place : t.s2 + 1 + (1 + digits.length + if digits.length < 3 then 1 else 0) =
      t.s2 + (digits.length + 2) + if digits.length < 3 then 1 else 0 := by omega
  rw [turn_escape (by decide) spans,← place]
  unfold Copying.escape
  rw [if_pos rfl,retrieveOctalEscapeSequence_run run spans.tail.tail]
  exact congrArg (Option.map some) (Copying.put_stores _ room)

theorem turn_hex {digits : List UInt8} (run : Run isxdigit 2 digits rest)
    (room : t.s1 < t.dest.length)
    (spans : Spans t.source t.s2 (92::120::(digits ++ (rest ++ [0])))) : ∃ source,
      turn t = some (some ⟨t.s1 + 1,t.s2 + (digits.length + 2),
        t.dest.set t.s1 (UInt8.ofNat (if digits = [] then 120 else readHex digits 0)),source⟩) ∧
      Spans source (t.s2 + (digits.length + 2)) (rest ++ [0]) ∧
        ((∀ c ∈ digits, c ≤ 57) → source = t.source) := by
  obtain ⟨source,reads,after,same⟩ := retrieveHexEscapeSequence_run run spans.tail.tail
  have place : t.s2 + 1 + (1 + digits.length) = t.s2 + (digits.length + 2) := by omega
  have behind : t.s2 + 1 + 1 + digits.length = t.s2 + (digits.length + 2) := by omega
  rw [behind] at after
  refine ⟨source,?_,after,same⟩
  · rw [turn_escape (by decide) spans,← place]
    unfold Copying.escape
    rw [if_neg (by decide),if_pos rfl,reads]
    exact congrArg (Option.map some) (Copying.put_stores _ room)

theorem turn_part (cuts : part.Cuts rest) (clean : 0 ∉ part.text) (room : t.s1 < t.dest.length)
    (spans : Spans t.source t.s2 (part.text ++ (rest ++ [0]))) : ∃ source,
      turn t = some (some ⟨t.s1 + 1,t.s2 + part.text.length + if part.Short then 1 else 0,
        t.dest.set t.s1 part.stored,source⟩) ∧
      Spans source (t.s2 + part.text.length) (rest ++ [0]) ∧ (part.Exact → source = t.source) := by
  have after := spans.right
  cases part with
  | octal digits => exact ⟨t.source,turn_octal cuts room spans,after,fun _ => rfl⟩
  | hex digits =>
    obtain ⟨source,turns,behind,same⟩ := turn_hex cuts room spans
    exact ⟨source,turns,behind,same⟩
  | escaped c =>
    have other : c ≠ 0 := fun same => clean (by simp [Part.text,same])
    refine ⟨t.source,?_,after,fun _ => rfl⟩
    rw [turn_escape other spans]
    unfold Copying.escape
    rw [if_neg cuts.1,if_neg cuts.2]
    exact congrArg (Option.map some) (Copying.put_stores _ room)
  | plain c =>
    have other : c ≠ 0 := fun same => clean (by simp [Part.text,same])
    refine ⟨t.source,?_,after,fun _ => rfl⟩
    have found := spans.head
    unfold turn
    rw [found]
    change (if c = 0 then _ else _) = _
    rw [if_neg other]
    exact (if_neg cuts).trans (congrArg (Option.map some) (Copying.put_stores _ room))

def Copying.takes (part : Part) (t : Copying) : Copying :=
  ⟨t.s1 + 1,t.s2 + part.text.length,t.dest.set t.s1 part.byte,t.source⟩

theorem stored_byte_iff (cuts : part.Cuts rest) :
    ¬part.Short ∧ part.stored = part.byte ↔ part.Exact := by
  cases part with
  | octal digits => exact (and_iff_left rfl).trans ⟨fun long => le_antisymm cuts.short
      (not_lt.mp long),fun three => not_lt.mpr (ge_of_eq three)⟩
  | hex digits =>
    refine (and_iff_right id).trans ?_
    unfold Part.stored Part.byte
    dsimp only
    by_cases none : digits = []
    · rw [if_pos none,if_pos none]
      exact iff_of_true rfl (by rw [none]; exact nofun)
    · rw [if_neg none,if_neg none]
      exact readHex_eq_iff cuts
  | escaped c => exact iff_of_true ⟨id,escapeSequence_eq c⟩ trivial
  | plain c => exact iff_of_true ⟨id,rfl⟩ trivial

theorem turn_takes_iff (cuts : part.Cuts rest) (clean : 0 ∉ part.text)
    (room : t.s1 < t.dest.length)
    (spans : Spans t.source t.s2 (part.text ++ (rest ++ [0]))) :
    turn t = some (some (t.takes part)) ↔ part.Exact := by
  obtain ⟨source,turns,_,kept⟩ := turn_part cuts clean room spans
  rw [turns,Option.some.injEq,Option.some.injEq]
  unfold Copying.takes
  rw [Copying.mk.injEq]
  constructor
  · intro same
    obtain ⟨_,place,stored,_⟩ := same
    refine (stored_byte_iff cuts).mp ⟨fun short => ?_,?_⟩
    · rw [if_pos short] at place
      omega
    · have there := congrArg (·[t.s1]?) stored
      simpa [room] using there
  · intro fine
    obtain ⟨long,same⟩ := (stored_byte_iff cuts).mpr fine
    rw [if_neg long,same,kept fine]
    exact ⟨rfl,rfl,rfl,rfl⟩

/-- Turn after turn the loop takes one part, and ends behind the last. -/
def Follows : List Part → Copying → Prop
  | [],t => turn t = some none
  | part::later,t => turn t = some (some (t.takes part)) ∧ Follows later (t.takes part)

def Dangling (s : List UInt8) : Prop := .plain 92 ∈ parts s

instance (s : List UInt8) : Decidable (Dangling s) := inferInstanceAs (Decidable (_ ∈ _))

/-- A string is empty, a lone backslash, or a part and what is behind it. -/
theorem parts_induction {motive : List UInt8 → Prop} (empty : motive []) (back : motive [92])
    (cons : ∀ (part : Part) (rest : List UInt8), part.Cuts rest →
      parts (part.text ++ rest) = part::parts rest →
      (∀ later : List UInt8, later.length ≤ rest.length → motive later) →
      motive (part.text ++ rest)) (s : List UInt8) : motive s := by
  induction size : s.length using Nat.strong_induction_on generalizing s with
  | _ n ih =>
    subst size
    cases s with
    | nil => exact empty
    | cons c s =>
      have split := parts.eq_2 c s
      obtain ⟨rfl,rfl⟩ | ⟨text,cuts⟩ := firstPart_cuts c s
      · exact back
      generalize firstPart c s = part at split text cuts
      generalize s.drop (part.text.length - 1) = rest at split text cuts
      rw [text] at split ih ⊢
      refine cons part rest cuts split fun later shorter => ih later.length ?_ later rfl
      have pos := part.text_pos
      rw [List.length_append]
      omega

theorem parts_nil : parts [] = [] := by rw [parts]

theorem parts_back : parts [92] = [.plain 92] := by
  rw [parts]
  exact congrArg _ parts_nil

/-- So a string that does not end with a backslash has none that dangles. -/
theorem Dangling.last {s : List UInt8} (dangles : Dangling s) : s.getLast? = some 92 := by
  unfold Dangling at dangles
  induction s using parts_induction with
  | empty =>
    rw [parts_nil] at dangles
    contradiction
  | back => rfl
  | cons part rest cuts split ih =>
    rw [split,List.mem_cons] at dangles
    obtain rfl | later := dangles
    · exact absurd rfl cuts
    · rw [List.getLast?_append,ih rest le_rfl later]
      rfl

theorem follows_iff {s : List UInt8} (clean : 0 ∉ s) (complete : ¬Dangling s)
    (room : t.s1 + s.length < t.dest.length) (spans : Spans t.source t.s2 (s ++ [0])) :
    Follows (parts s) t ↔ ∀ part ∈ parts s, part.Exact := by
  unfold Dangling at complete
  induction s using parts_induction generalizing t with
  | empty =>
    rw [parts_nil]
    refine iff_of_true ?_ nofun
    have found := spans.head
    unfold Follows turn
    rw [found]
    rfl
  | back => exact absurd (parts_back ▸ List.mem_singleton_self _) complete
  | cons part rest cuts split ih =>
    rw [split,List.mem_cons,not_or] at complete
    rw [List.length_append] at room
    rw [List.append_assoc] at spans
    obtain ⟨here,behind⟩ := not_or.mp (mt List.mem_append.mpr clean)
    have pos := part.text_pos
    rw [split,List.forall_mem_cons,Follows,turn_takes_iff cuts here (by omega) spans]
    refine and_congr_right fun _ => ih rest le_rfl behind complete.2 ?_ spans.right
    unfold Copying.takes
    dsimp only
    rw [List.length_set]
    omega

theorem parts_length (s : List UInt8) : (parts s).length ≤ s.length := by
  induction s using parts_induction with
  | empty => exact ge_of_eq (congrArg List.length parts_nil.symm)
  | back => exact ge_of_eq (congrArg List.length parts_back.symm)
  | cons part rest cuts split ih =>
    have fewer := ih rest le_rfl
    have pos := part.text_pos
    rw [split,List.length_cons,List.length_append]
    omega

theorem Follows.result {later : List Part} (follows : Follows later t)
    (room : t.s1 + later.length < t.dest.length) :
    copyLoop t = some (t.s1 + later.length,t.dest.take t.s1 ++ (later.map Part.byte ++
      0::t.dest.drop (t.s1 + later.length + 1)),t.source) := by
  induction later generalizing t with
  | nil =>
    have here : t.s1 < t.dest.length := room
    rw [copyLoop_ends follows here,List.set_eq_take_append_cons_drop,if_pos here]
    rfl
  | cons part later ih =>
    rw [List.length_cons] at room ⊢
    obtain ⟨goes,onward⟩ := follows
    have front : (t.dest.set t.s1 part.byte).take (t.s1 + 1) = t.dest.take t.s1 ++ [part.byte] := by
      rw [List.set_eq_take_append_cons_drop,if_pos (by omega),List.append_cons]
      exact List.take_left' (by simp; omega)
    have room : (t.takes part).s1 + later.length < (t.takes part).dest.length := by
      change t.s1 + 1 + later.length < (t.dest.set t.s1 part.byte).length
      rw [List.length_set]
      omega
    rw [copyLoop_next goes,ih onward room]
    change some (t.s1 + 1 + later.length,(t.dest.set t.s1 part.byte).take (t.s1 + 1) ++
      (later.map Part.byte ++ 0::(t.dest.set t.s1 part.byte).drop (t.s1 + 1 + later.length + 1)),
      t.source) = _
    rw [front,List.drop_set_of_lt (by omega),List.append_assoc,Nat.add_assoc t.s1,
      Nat.add_comm 1 later.length]
    rfl

/-- What is promised of a string: the loop takes it part by part, each escape sequence with
exactly its digits, and leaves the bytes that they stand for, and the source as it was. -/
structure Means (s behind dest : List UInt8) : Prop where
  follows : Follows (parts s) ⟨0,0,dest,s ++ 0::behind⟩
  copied : escapeSequenceCopy dest (s ++ 0::behind) = some ((parts s).length,
    (parts s).map Part.byte ++ 0::dest.drop ((parts s).length + 1),s ++ 0::behind)

end

/-- An escape sequence means what it should in a string if and only if all octal escapes
have three digits and there are no letters among the hexadecimal digits. -/
theorem means_iff (s behind dest : List UInt8) (clean : 0 ∉ s) (complete : ¬Dangling s)
    (room : s.length < dest.length) :
    Means s behind dest ↔ ∀ part ∈ parts s, part.Exact := by
  have spans : Spans (s ++ 0::behind) 0 (s ++ [0]) := ⟨behind,by simp⟩
  have follows := follows_iff (t := ⟨0,0,dest,s ++ 0::behind⟩) clean complete (by simpa using room)
    spans
  refine Iff.trans ⟨Means.follows,fun taken => ⟨taken,?_⟩⟩ follows
  have fewer := parts_length s
  have result := taken.result (by dsimp only; omega)
  rw [Nat.zero_add] at result
  exact result

/-- `\0101B\x41` -/
theorem means_iff_letters :
    Means [92,48,49,48,49,66,92,120,52,49] [] [0,0,0,0,0,0,0,0,0,0,0] :=
  (means_iff _ [] _ (by decide) (by decide +kernel) (by decide)).mpr
    (by decide +kernel)

/-- `\x4A` -/
theorem hex_letter : ¬∀ s behind dest : List UInt8, 0 ∉ s → ¬Dangling s →
    s.length < dest.length → Means s behind dest := by
  intro all
  have means := all [92,120,52,65] [] [0,0,0,0,0] (by decide) (by decide +kernel)
    (by decide)
  exact absurd means.copied (by decide +kernel)

end SerialIp.Escape
