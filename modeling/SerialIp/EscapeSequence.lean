import SerialIp.TelnetCodes
import SerialIp.Library.CString

/-! escape_sequence_copy with the helpers of escape_sequence_handle.c, on the bytes of the
source and of the destination. `s1` is a place in the destination, `s2` one in the source,
which the hex helper also stores to. -/
namespace SerialIp.Escape
open Library Library.CString

def isOctal (c : UInt8) : Bool := 48 ≤ c && c ≤ 55

def isxdigit (c : UInt8) : Bool := 48 ≤ c && c ≤ 57 || 65 ≤ c && c ≤ 70 || 97 ≤ c && c ≤ 102

/-- The loop with the turns that `*len < 4` leaves it. The byte that clears the flag is
counted before the flag is looked at. -/
def octalLoop (m : List UInt8) : Nat → Nat → Nat → Nat → Option (Nat × Nat)
  | 0,_,value,len => return (value,len)
  | turns + 1,s,value,len => do
    let c ← m[s]?
    if isOctal c then octalLoop m turns (s + 1) (value * 8 + (c - 48).toNat) (len + 1)
    else return (value,len + 1)

def retrieveOctalEscapeSequence (m : List UInt8) (s : Nat) : Option (Nat × Nat) := do
  let (value,len) ← octalLoop m 3 (s + 1) 0 1
  return (if len = 1 then 48 else value,len)

/-- `if (*s >= 'A' && *s <= 'Z') *s = *s + 'a' - 'A';` -/
def lower (m : List UInt8) (s : Nat) : Option (List UInt8) := do
  let c ← m[s]?
  if 65 ≤ c && c ≤ 90 then store m s (c + 32) else return m

/-- The loop with the turns that `*len < 3` leaves it. -/
def hexLoop : Nat → List UInt8 → Nat → Nat → Nat → Option (List UInt8 × Nat × Nat)
  | 0,m,_,value,len => return (m,value,len)
  | turns + 1,m,s,value,len => do
    let c ← m[s]?
    if isxdigit c then
      let m ← lower m s
      let c ← m[s]?
      hexLoop turns m (s + 1) (value * 16 + (c - 48).toNat) (len + 1)
    else return (m,value,len)

def retrieveHexEscapeSequence (m : List UInt8) (s : Nat) : Option (List UInt8 × Nat × Nat) := do
  let (m,value,len) ← hexLoop 2 m (s + 1) 0 1
  return (m,if len = 1 then 120 else value,len)

def escapeSequence (c : UInt8) : UInt8 :=
  if c = 97 then 7
  else if c = 98 then 8
  else if c = 102 then 12
  else if c = 110 then 10
  else if c = 114 then 13
  else if c = 116 then 9
  else if c = 118 then 11
  else c

structure Copying where
  s1 : Nat
  s2 : Nat
  dest : List UInt8
  source : List UInt8

/-- `*s1++ = c;` -/
def Copying.put (c : UInt8) (t : Copying) : Option Copying := do
  let dest ← store t.dest t.s1 c
  return {t with s1 := t.s1 + 1, dest := dest}

/-- The switch on the byte behind a backslash, to which `s2` points. -/
def Copying.escape (c : UInt8) (t : Copying) : Option Copying :=
  if c = 48 then do
    let (value,escapeLen) ← retrieveOctalEscapeSequence t.source t.s2
    Copying.put (UInt8.ofNat value) {t with s2 := t.s2 + escapeLen}
  else if c = 120 then do
    let (source,value,escapeLen) ← retrieveHexEscapeSequence t.source t.s2
    Copying.put (UInt8.ofNat value) {t with s2 := t.s2 + escapeLen, source := source}
  else Copying.put (escapeSequence c) {t with s2 := t.s2 + 1}

/-- One turn of the loop; the inner `none` where it ends. -/
def turn (t : Copying) : Option (Option Copying) := do
  let c ← t.source[t.s2]?
  if c = 0 then return none
  else if c = 92 then
    let s2 := t.s2 + 1
    let c ← t.source[s2]?
    if c = 0 then return none else (Copying.escape c {t with s2 := s2}).map some
  else (Copying.put c {t with s2 := t.s2 + 1}).map some

theorem store_length {m m' : List UInt8} {p : Nat} {c : UInt8} (stored : store m p c = some m') :
    m'.length = m.length := by
  unfold store at stored
  split at stored
  · obtain rfl := Option.some.inj stored
    exact List.length_set
  · contradiction

theorem lower_length {m m' : List UInt8} {s : Nat} (lowered : lower m s = some m') :
    m'.length = m.length := by
  obtain ⟨c,_,lowered⟩ := Option.bind_eq_some_iff.mp lowered
  split at lowered
  · exact store_length lowered
  · cases lowered
    rfl

theorem hexLoop_length {turns : Nat} {m m' : List UInt8} {s value len value' len' : Nat}
    (read : hexLoop turns m s value len = some (m',value',len')) : m'.length = m.length := by
  induction turns generalizing m s value len with
  | zero =>
    cases read
    rfl
  | succ turns ih =>
    obtain ⟨c,_,read⟩ := Option.bind_eq_some_iff.mp read
    split at read
    · obtain ⟨lowered,lowers,read⟩ := Option.bind_eq_some_iff.mp read
      obtain ⟨c,_,read⟩ := Option.bind_eq_some_iff.mp read
      exact (ih read).trans (lower_length lowers)
    · cases read
      rfl

theorem Copying.put_source {c : UInt8} {t next : Copying} (put : t.put c = some next) :
    next.s2 = t.s2 ∧ next.source = t.source := by
  obtain ⟨dest,_,put⟩ := Option.bind_eq_some_iff.mp put
  cases put
  exact ⟨rfl,rfl⟩

theorem Copying.escape_progress {c : UInt8} {t next : Copying} (escapes : t.escape c = some next) :
    t.s2 ≤ next.s2 ∧ next.source.length = t.source.length := by
  unfold Copying.escape at escapes
  split at escapes
  · obtain ⟨⟨value,len⟩,_,put⟩ := Option.bind_eq_some_iff.mp escapes
    obtain ⟨place,source⟩ := put_source put
    exact ⟨place ▸ Nat.le_add_right _ _,source ▸ rfl⟩
  split at escapes
  · obtain ⟨⟨source,value,len⟩,read,put⟩ := Option.bind_eq_some_iff.mp escapes
    obtain ⟨⟨m,_,_⟩,looped,same⟩ := Option.bind_eq_some_iff.mp read
    cases same
    obtain ⟨place,source⟩ := put_source put
    exact ⟨place ▸ Nat.le_add_right _ _,source ▸ hexLoop_length looped⟩
  · obtain ⟨place,source⟩ := put_source escapes
    exact ⟨place ▸ Nat.le_add_right _ _,source ▸ rfl⟩

/-- A turn that goes on has read a byte, and leaves the source at its length. -/
theorem turn_progress {t next : Copying} (goes : turn t = some (some next)) :
    t.s2 < t.source.length ∧ t.s2 < next.s2 ∧ next.source.length = t.source.length := by
  obtain ⟨c,found,goes⟩ := Option.bind_eq_some_iff.mp goes
  refine ⟨(List.getElem?_eq_some_iff.mp found).1,?_⟩
  split at goes
  · cases goes
  split at goes
  · obtain ⟨d,_,goes⟩ := Option.bind_eq_some_iff.mp goes
    split at goes
    · cases goes
    · obtain ⟨after,escapes,same⟩ := Option.map_eq_some_iff.mp goes
      cases same
      have progress := Copying.escape_progress escapes
      exact ⟨progress.1,progress.2⟩
  · obtain ⟨after,put,same⟩ := Option.map_eq_some_iff.mp goes
    cases same
    obtain ⟨place,source⟩ := Copying.put_source put
    exact ⟨place ▸ Nat.lt_succ_self _,source ▸ rfl⟩

/-- The loop and the final NUL: the pointer that is returned, the destination, the source. -/
def copyLoop (t : Copying) : Option (Nat × List UInt8 × List UInt8) :=
  match _goes : turn t with
  | none => none
  | some none => do
    let dest ← store t.dest t.s1 0
    return (t.s1,dest,t.source)
  | some (some next) => copyLoop next
termination_by t.source.length - t.s2
decreasing_by
  have progress := turn_progress _goes
  omega

def escapeSequenceCopy (s1 s2 : List UInt8) : Option (Nat × List UInt8 × List UInt8) :=
  copyLoop ⟨0,0,s1,s2⟩

theorem copyLoop_next {t next : Copying} (goes : turn t = some (some next)) :
    copyLoop t = copyLoop next := by
  rw [copyLoop]
  split
  · rename_i outside
    exact absurd (outside.symm.trans goes) nofun
  · rename_i ends
    exact absurd (ends.symm.trans goes) nofun
  · rename_i after goes'
    obtain rfl := Option.some.inj (Option.some.inj (goes'.symm.trans goes))
    rfl

theorem copyLoop_outside {t : Copying} (outside : turn t = none) : copyLoop t = none := by
  rw [copyLoop]
  split
  · rfl
  · rename_i ends
    exact absurd (ends.symm.trans outside) nofun
  · rename_i goes
    exact absurd (goes.symm.trans outside) nofun

theorem copyLoop_ends {t : Copying} (ends : turn t = some none) (room : t.s1 < t.dest.length) :
    copyLoop t = some (t.s1,t.dest.set t.s1 0,t.source) := by
  rw [copyLoop]
  split
  · rename_i outside
    exact absurd (outside.symm.trans ends) nofun
  · unfold store
    rw [if_pos room]
    rfl
  · rename_i goes
    exact absurd (Option.some.inj (goes.symm.trans ends)) nofun

end SerialIp.Escape
