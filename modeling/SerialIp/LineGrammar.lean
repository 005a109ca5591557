import SerialIp.ConfigurationEntry
import SerialIp.Library.CString

/-! parse_entry on the bytes of its buffer, with the pointers and the cuts in place of
utilities.c, and the grammar of the lines. The strings of ConfigurationEntry.lean are
what its pointers stand for. Lengths and differences of pointers are natural numbers:
fgets fills a buffer of BUFSIZ bytes, and no int of the parser overflows. -/
namespace SerialIp.Line
open Library Library.CString

/-- `name` is the array of SIZE_KEYWORD bytes, `value` points into the buffer. -/
structure Entry where
  name : List UInt8
  token : Token
  type : ValueType
  value : Nat

/-- The string is cut at its first such byte; the pointer is where, or else its beginning. -/
def cutAt (c : UInt8) (str : List UInt8) : Option (Nat × List UInt8) := do
  match ← strchr 0 str 0 c with
  | some s =>
    let str ← store str s 0
    return (s,str)
  | none => return (0,str)

def removeFeedlineFromString : List UInt8 → Option (Nat × List UInt8) := cutAt 10

def removeCarriageReturnFromString : List UInt8 → Option (Nat × List UInt8) := cutAt 13

def skipWhiteSpace (str : List UInt8) (p : Nat) : Option Nat :=
  advance (fun c => c ≠ 0 && isspace c) str p

def retrieveConfigurationEntryName (str : List UInt8) (s : Nat) : Option (List UInt8) := do
  let len ← strlen 0 str s
  if len < 1 then return str
  let p ← backward isspace str len (s + len - 1)
  store str (p + 1) 0

def stringToLower (str : List UInt8) (p : Nat) : Option (List UInt8) := mapString 0 tolower str p

/-- The keyword from `s` to the equals sign at `p`, as parse_entry stores it. -/
def storeName (buffer : List UInt8) (s p : Nat) : Option (List UInt8) := do
  let name := List.replicate SIZE_KEYWORD 32
  let c := p - s
  let c := if SIZE_KEYWORD ≤ c then SIZE_KEYWORD - 1 else c
  let name ← strncpy 0 name buffer s c
  let name ← store name c 0
  let name ← retrieveConfigurationEntryName name 0
  stringToLower name 0

/-- The rest of parse_entry, from behind the equals sign. -/
def storeValue (buffer : List UInt8) (p : Nat) (entry : Entry) :
    Option (Token × List UInt8 × Entry) := do
  if (← buffer[p]?) = 0 then return (.INVALID,buffer,entry)
  let p ← skipWhiteSpace buffer p
  if (← buffer[p]?) = 0 then return (.INVALID,buffer,entry)
  let buffer ← retrieveConfigurationEntryName buffer p
  if (← buffer[p]?) = 0 then return (.INVALID,buffer,entry)
  return (entry.token,buffer,{entry with value := p})

/-- The part of parse_entry for a line that is neither blank nor a comment. -/
def storeAssignment (buffer : List UInt8) (s : Nat) (entry : Entry) :
    Option (Token × List UInt8 × Entry) := do
  let p ← advance (fun c => c ≠ 61 && c ≠ 0) buffer s
  if (← buffer[p]?) = 0 then return (.UNKNOWN,buffer,entry)
  if s = p then return (.UNKNOWN,buffer,entry)
  let name ← storeName buffer s p
  let (token,type) := lookUp (cString name)
  storeValue buffer (p + 1) {entry with name := name, token := token, type := type}

def parseEntry (buffer : List UInt8) (entry : Entry) : Option (Token × List UInt8 × Entry) := do
  let (_,buffer) ← removeFeedlineFromString buffer
  let (_,buffer) ← removeCarriageReturnFromString buffer
  let p ← skipWhiteSpace buffer 0
  if (← strlen 0 buffer p) ≤ 0 then return (.BLANKLINE,buffer,entry)
  if (← buffer[p]?) = 35 then return (.COMMENT,buffer,entry)
  if (← buffer[p]?) = 59 then return (.COMMENT,buffer,entry)
  storeAssignment buffer p entry

/-- hsearch with ENTER, which keeps an entry that is there already. -/
def enter (table : List (List UInt8 × Keyword)) (keyword : Keyword) : List (List UInt8 × Keyword) :=
  let key := SerialIp.stringToLower keyword.name
  if (table.find? (·.1 = key)).isSome then table else table ++ [(key,keyword)]

def keywordTableInit (table : List Keyword) : List (List UInt8 × Keyword) := table.foldl enter []

section
variable {m s : List UInt8} {p : Nat}

theorem cutAt_holds (holds : Holds 0 m 0 s) {c : UInt8} (other : c ≠ 0) :
    ∃ q m', cutAt c m = some (q,m') ∧ Holds 0 m' 0 (s.takeWhile (· ≠ c)) := by
  unfold cutAt
  obtain ⟨absent,whole⟩ | ⟨late,found,cut⟩ := holds.strchr other
  · rw [absent,whole]
    exact ⟨0,m,rfl,holds⟩
  · rw [found]
    rw [cut] at holds
    obtain ⟨m',stored,short⟩ := holds.cut
    refine ⟨0 + (s.takeWhile (· ≠ c)).length,m',?_,short⟩
    change (store m _ 0 >>= _) = _
    rw [stored]
    rfl

theorem skipWhiteSpace_holds (holds : Holds 0 m p s) :
    skipWhiteSpace m p = some (p + (s.takeWhile isspace).length) ∧
      Holds 0 m (p + (s.takeWhile isspace).length) (SerialIp.skipWhiteSpace s) := by
  have same : (fun c => c ≠ 0 && isspace c) = isspace := by
    funext c
    by_cases null : c = 0
    · subst null
      rfl
    · simp [null]
  unfold skipWhiteSpace
  rw [same]
  exact holds.advance rfl

/-- A string that begins with no white space keeps its beginning. -/
theorem retrieveConfigurationEntryName_holds (holds : Holds 0 m p s)
    (begins : ∀ c ∈ s.head?, isspace c = false) :
    ∃ m', retrieveConfigurationEntryName m p = some m' ∧
      Holds 0 m' p (SerialIp.retrieveConfigurationEntryName s) := by
  unfold retrieveConfigurationEntryName
  rw [holds.strlen]
  cases s with
  | nil => exact ⟨m,rfl,holds⟩
  | cons c s =>
    have kept : (c::s).rdropWhile isspace ≠ [] := by
      intro none
      have all := List.rdropWhile_eq_nil_iff.mp none c List.mem_cons_self
      rw [begins c rfl] at all
      contradiction
    have long := List.length_pos_iff.mpr kept
    obtain ⟨late,cut⟩ := List.rdropWhile_prefix isspace (c::s)
    have back := holds.spans.left.backward kept
    rw [← cut] at holds
    obtain ⟨m',stored,short⟩ := holds.cut
    refine ⟨m',?_,short⟩
    change (backward isspace m (c::s).length (p + (c::s).length - 1) >>= _) = _
    rw [back]
    change store m (p + ((c::s).rdropWhile isspace).length - 1 + 1) 0 = _
    rw [Nat.sub_add_cancel (by omega),stored]

theorem stringToLower_holds (holds : Holds 0 m p s) :
    ∃ m', stringToLower m p = some m' ∧ Holds 0 m' p (SerialIp.stringToLower s) := by
  refine holds.mapString (fun c null => ?_)
  unfold tolower at null
  split at null
  · rename_i upper
    simp only [Bool.and_eq_true,decide_eq_true_eq,UInt8.le_iff_toNat_le] at upper
    have sum := congrArg UInt8.toNat null
    rw [UInt8.toNat_add] at sum
    change (c.toNat + 32) % 256 = 0 at sum
    change 65 ≤ c.toNat ∧ c.toNat ≤ 90 at upper
    omega
  · exact null

theorem cString_holds (holds : Holds 0 m p s) : cString (m.drop p) = s := by
  obtain ⟨rest,same⟩ := holds.spans
  have kept : ∀ c ∈ s, (c ≠ 0 : Bool) = true := fun c member =>
    decide_eq_true fun null => holds.clean (null ▸ member)
  unfold cString
  rw [← same,List.append_assoc,List.takeWhile_append_of_pos kept]
  exact List.append_nil s

/-- At most the first bytes of the keyword fit the array. -/
theorem storeName_holds {word rest : List UInt8} (holds : Holds 0 m p (word ++ rest))
    (begins : ∀ c ∈ word.head?, isspace c = false) :
    ∃ name, storeName m p (p + word.length) = some name ∧ Holds 0 name 0
      (SerialIp.stringToLower (SerialIp.retrieveConfigurationEntryName (word.take (SIZE_KEYWORD - 1)))) := by
  have start : word.take (SIZE_KEYWORD - 1) <+: word ++ rest :=
    (List.take_prefix ..).trans (List.prefix_append ..)
  have starts : ∀ c ∈ (word.take (SIZE_KEYWORD - 1)).head?, isspace c = false := by
    intro c first
    rw [List.head?_take] at first
    exact begins c first
  have count := word.length_take (i := SIZE_KEYWORD - 1)
  generalize word.take (SIZE_KEYWORD - 1) = kept at start starts count ⊢
  have fits : kept.length < SIZE_KEYWORD := by
    rw [count]
    exact Nat.lt_of_le_of_lt (Nat.min_le_left ..) (by decide)
  have spaces : (List.replicate SIZE_KEYWORD (32 : UInt8)).drop kept.length =
      32::List.replicate (SIZE_KEYWORD - kept.length - 1) 32 := by
    rw [List.drop_replicate,← List.replicate_succ]
    congr 1
    omega
  have copies : strncpy 0 (List.replicate SIZE_KEYWORD 32) m p kept.length =
      some (kept ++ 32::List.replicate (SIZE_KEYWORD - kept.length - 1) 32) := by
    rw [holds.strncpy start.length_le (by rw [List.length_replicate]; omega),spaces,
      ← List.prefix_iff_eq_take.mp start]
  obtain ⟨ended,stored,spans⟩ := Spans.store (p := 0) (c := (0 : UInt8)) (d := 32) (List.prefix_refl
    (kept ++ 32::List.replicate (SIZE_KEYWORD - kept.length - 1) (32 : UInt8)))
  rw [Nat.zero_add] at stored
  rw [List.append_cons] at spans
  have clean : 0 ∉ kept := fun member => holds.clean (start.subset member)
  obtain ⟨trimmed,trims,left⟩ := retrieveConfigurationEntryName_holds ⟨clean,spans.left⟩ starts
  obtain ⟨name,folds,done⟩ := stringToLower_holds left
  refine ⟨name,?_,done⟩
  have size : (if SIZE_KEYWORD ≤ p + word.length - p then SIZE_KEYWORD - 1 else p + word.length - p) =
      kept.length := by
    rw [count,Nat.add_sub_cancel_left]
    unfold SIZE_KEYWORD
    split <;> omega
  unfold storeName
  dsimp only
  rw [size,copies]
  change (store _ kept.length 0 >>= _) = _
  rw [stored]
  change (retrieveConfigurationEntryName ended 0 >>= _) = _
  rw [trims]
  exact folds

theorem skipWhiteSpace_begins (s : List UInt8) :
    ∀ c ∈ (SerialIp.skipWhiteSpace s).head?, isspace c = false := by
  intro c first
  have stops := List.head?_dropWhile_not isspace s
  rw [show (s.dropWhile isspace).head? = some c from first] at stops
  simpa using stops

theorem retrieveConfigurationEntryName_nonempty {c : UInt8} (begins : isspace c = false) :
    SerialIp.retrieveConfigurationEntryName (c::s) ≠ [] := by
  intro none
  have all := List.rdropWhile_eq_nil_iff.mp none c List.mem_cons_self
  rw [begins] at all
  contradiction

/-- A blank value is refused; any other one is kept without the white space around it. -/
theorem storeValue_holds (holds : Holds 0 m p s) (entry : Entry) :
    SerialIp.skipWhiteSpace s = [] ∧ storeValue m p entry = some (.INVALID,m,entry) ∨
      SerialIp.skipWhiteSpace s ≠ [] ∧ ∃ q m', storeValue m p entry =
        some (entry.token,m',{entry with value := q}) ∧
          Holds 0 m' q (SerialIp.retrieveConfigurationEntryName (SerialIp.skipWhiteSpace s)) := by
  unfold storeValue
  cases s with
  | nil =>
    rw [holds.head_nil]
    exact Or.inl ⟨rfl,rfl⟩
  | cons c s =>
    have some : c ≠ 0 := fun null => holds.clean (null ▸ List.mem_cons_self)
    obtain ⟨skips,reached⟩ := skipWhiteSpace_holds holds
    have begins := skipWhiteSpace_begins (c::s)
    simp only [holds.head_cons,skips,Option.bind_eq_bind,Option.bind_some,if_neg some]
    cases left : SerialIp.skipWhiteSpace (c::s) with
    | nil =>
      rw [left] at reached
      rw [reached.head_nil]
      exact Or.inl ⟨rfl,rfl⟩
    | cons d rest =>
      rw [left] at reached begins
      have first : d ≠ 0 := fun null => reached.clean (null ▸ List.mem_cons_self)
      obtain ⟨m',trims,held⟩ := retrieveConfigurationEntryName_holds reached begins
      have kept := retrieveConfigurationEntryName_nonempty (s := rest) (begins d rfl)
      refine Or.inr ⟨nofun,p + ((c::s).takeWhile isspace).length,m',?_,held⟩
      simp only [reached.head_cons,trims,Option.bind_some,if_neg first]
      obtain ⟨e,value,same⟩ := List.exists_cons_of_ne_nil kept
      rw [same] at held
      have last : e ≠ 0 := fun null => held.clean (null ▸ List.mem_cons_self)
      rw [held.head_cons,Option.bind_some,if_neg last]
      rfl

end

/-- The line cut at the first newline and then at the first carriage return, without
leading white space. -/
def content (line : List UInt8) : List UInt8 :=
  ((line.takeWhile (· ≠ 10)).takeWhile (· ≠ 13)).dropWhile isspace

def key (word : List UInt8) : List UInt8 := ((word.take 63).rdropWhile isspace).map tolower

def strip (value : List UInt8) : List UInt8 := (value.dropWhile isspace).rdropWhile isspace

/-- What the lines are, one rule for each kind. -/
inductive Reads (line : List UInt8) : Except Token ConfigEntry → Prop
  | blank (empty : content line = []) : Reads line (.error .BLANKLINE)
  | comment (c : UInt8) (rest : List UInt8) (text : content line = c::rest) (mark : c = 35 ∨ c = 59) :
      Reads line (.error .COMMENT)
  | unassigned (c : UInt8) (rest : List UInt8) (text : content line = c::rest)
      (plain : ¬(c = 35 ∨ c = 59)) (absent : 61 ∉ c::rest) : Reads line (.error .UNKNOWN)
  | unnamed (rest : List UInt8) (text : content line = 61::rest) : Reads line (.error .UNKNOWN)
  | invalid (c : UInt8) (word value : List UInt8) (text : content line = c::word ++ 61::value)
      (plain : ¬(c = 35 ∨ c = 59)) (first : 61 ∉ c::word) (blank : value.dropWhile isspace = []) :
      Reads line (.error .INVALID)
  | entry (c : UInt8) (word value : List UInt8) (text : content line = c::word ++ 61::value)
      (plain : ¬(c = 35 ∨ c = 59)) (first : 61 ∉ c::word) (some : value.dropWhile isspace ≠ []) :
      Reads line (.ok ⟨(lookUp (key (c::word))).1,(lookUp (key (c::word))).2,strip value⟩)

theorem parseEntry_reads (line : List UInt8) : Reads line (SerialIp.parseEntry line) := by
  unfold SerialIp.parseEntry
  have same : SerialIp.skipWhiteSpace (SerialIp.removeCarriageReturnFromString
    (SerialIp.removeFeedlineFromString line)) = content line := rfl
  rw [same]
  dsimp only
  split
  · exact .blank ‹_›
  · exact .comment 35 _ ‹_› (Or.inl rfl)
  · exact .comment 59 _ ‹_› (Or.inr rfl)
  · rename_i other hash semicolon
    obtain ⟨c,rest,text⟩ := List.exists_cons_of_ne_nil other
    have plain : ¬(c = 35 ∨ c = 59) := by
      intro mark
      obtain rfl | rfl := mark
      · exact hash _ text
      · exact semicolon _ text
    have cut : (content line).takeWhile (· ≠ 61) ++ (content line).dropWhile (· ≠ 61) = content line :=
      List.takeWhile_append_dropWhile
    have before : 61 ∉ (content line).takeWhile (· ≠ 61) := by
      intro member
      exact absurd (List.mem_takeWhile_imp member) (by decide)
    split
    · rename_i none
      rw [none,List.append_nil] at cut
      rw [cut,text] at before
      exact .unassigned c rest text plain before
    · rename_i d value left
      have found := List.head?_dropWhile_not (· ≠ 61) (content line)
      rw [left] at found cut
      have equals : d = 61 := by simpa using found
      subst equals
      cases word : (content line).takeWhile (· ≠ 61) with
      | nil =>
        rw [word] at cut
        exact .unnamed value cut.symm
      | cons b word =>
        rw [word] at cut before
        have head : b = c := by
          rw [text] at cut
          exact (List.cons.inj cut).1
        rw [if_neg (List.cons_ne_nil b _)]
        have begins := skipWhiteSpace_begins value
        split
        · rename_i blank
          refine .invalid b _ value cut.symm (head ▸ plain) before ?_
          apply Classical.byContradiction
          intro some
          obtain ⟨e,tail,same⟩ := List.exists_cons_of_ne_nil some
          have kept : SerialIp.skipWhiteSpace value = e::tail := same
          rw [kept] at blank begins
          exact retrieveConfigurationEntryName_nonempty (begins e rfl) blank
        · rename_i kept
          refine .entry b _ value cut.symm (head ▸ plain) before fun blank => kept ?_
          rw [show SerialIp.skipWhiteSpace value = [] from blank]
          rfl

section
variable {m : List UInt8} {p : Nat} (entry : Entry)

theorem storeAssignment_unassigned {text : List UInt8} (holds : Holds 0 m p text) (absent : 61 ∉ text) :
    storeAssignment m p entry = some (.UNKNOWN,m,entry) := by
  obtain ⟨sought,ended⟩ := holds.seek 61
  have other : ∀ c ∈ text, (c ≠ 61 : Bool) = true := fun c member =>
    decide_eq_true fun same => absent (same ▸ member)
  rw [List.takeWhile_eq_self_iff.mpr other] at sought ended
  rw [List.dropWhile_eq_nil_iff.mpr other] at ended
  unfold storeAssignment
  rw [sought]
  change (m[p + text.length]? >>= _) = _
  rw [ended.head_nil]
  rfl

theorem storeAssignment_unnamed {rest : List UInt8} (holds : Holds 0 m p (61::rest)) :
    storeAssignment m p entry = some (.UNKNOWN,m,entry) := by
  have sought : advance (fun c => c ≠ 61 && c ≠ 0) m p = some p := (holds.seek 61).1
  unfold storeAssignment
  rw [sought]
  change (m[p]? >>= _) = _
  rw [holds.head_cons]
  change (if p = p then _ else _) = _
  rw [if_pos rfl]
  rfl

theorem assignment_split {word : List UInt8} (first : 61 ∉ word) (value : List UInt8) :
    (word ++ 61::value).takeWhile (· ≠ 61) = word ∧
      (word ++ 61::value).dropWhile (· ≠ 61) = 61::value := by
  have other : ∀ d ∈ word, (d ≠ 61 : Bool) = true := fun d member =>
    decide_eq_true fun same => first (same ▸ member)
  constructor
  · rw [List.takeWhile_append_of_pos other]
    exact List.append_nil _
  · rw [List.dropWhile_append_of_pos other]
    rfl

theorem storeAssignment_named {c : UInt8} {word value : List UInt8}
    (holds : Holds 0 m p (c::word ++ 61::value)) (begins : isspace c = false) (first : 61 ∉ c::word) :
    ∃ name q, Holds 0 m q value ∧ storeAssignment m p entry = storeValue m q
      {entry with
        name := name, token := (lookUp (key (c::word))).1, type := (lookUp (key (c::word))).2} := by
  obtain ⟨sought,ended⟩ := holds.seek 61
  obtain ⟨taken,left⟩ := assignment_split first value
  rw [taken] at sought ended
  rw [left] at ended
  obtain ⟨name,stores,named⟩ := storeName_holds holds fun d head => Option.some.inj head ▸ begins
  have read : cString name = key (c::word) := cString_holds named
  have behind : Holds 0 m (p + (c::word).length) ([61] ++ value) := ended
  refine ⟨name,_,behind.right,?_⟩
  unfold storeAssignment
  rw [sought]
  change (m[p + (c::word).length]? >>= _) = _
  rw [ended.head_cons]
  change (if p = p + (c::word).length then _ else _) = _
  rw [if_neg (by simp),stores,← read]
  rfl

end

/-- parse_entry never leaves its buffers, and reads the line as the strings say. -/
theorem parseEntry_refines (line rest : List UInt8) (entry : Entry) (clean : 0 ∉ line) :
    ∃ token buffer after, parseEntry (line ++ 0::rest) entry = some (token,buffer,after) ∧
      match SerialIp.parseEntry line with
      | .error missing => token = missing
      | .ok read => token = read.token ∧ after.token = read.token ∧ after.type = read.type ∧
          cString (buffer.drop after.value) = read.value := by
  have holds : Holds 0 (line ++ 0::rest) 0 line := ⟨clean,rest,by simp⟩
  obtain ⟨_,first,cuts,holds⟩ := cutAt_holds holds (c := 10) (by decide)
  obtain ⟨_,buffer,ends,holds⟩ := cutAt_holds holds (c := 13) (by decide)
  have begins := skipWhiteSpace_begins ((line.takeWhile (· ≠ 10)).takeWhile (· ≠ 13))
  obtain ⟨skips,holds⟩ := skipWhiteSpace_holds holds
  unfold parseEntry removeFeedlineFromString removeCarriageReturnFromString
  simp only [cuts,ends,skips,Option.bind_eq_bind,Option.bind_some,holds.strlen]
  generalize 0 + (((line.takeWhile (· ≠ 10)).takeWhile (· ≠ 13)).takeWhile isspace).length = p at holds ⊢
  have same : SerialIp.skipWhiteSpace ((line.takeWhile (· ≠ 10)).takeWhile (· ≠ 13)) = content line := rfl
  rw [same] at holds begins ⊢
  have reads := parseEntry_reads line
  generalize SerialIp.parseEntry line = result at reads ⊢
  cases reads with
  | blank empty =>
    rw [empty]
    exact ⟨_,_,_,rfl,rfl⟩
  | comment c rest text mark =>
    rw [text] at holds ⊢
    obtain rfl | rfl := mark
    · rw [holds.head_cons]
      exact ⟨_,_,_,rfl,rfl⟩
    · rw [holds.head_cons]
      exact ⟨_,_,_,rfl,rfl⟩
  | unassigned c rest text plain absent =>
    obtain ⟨hash,semicolon⟩ := not_or.mp plain
    rw [text] at holds ⊢
    simp only [holds.head_cons,Option.bind_some,if_neg hash,if_neg semicolon,
      storeAssignment_unassigned entry holds absent]
    exact ⟨_,_,_,rfl,rfl⟩
  | unnamed rest text =>
    rw [text] at holds ⊢
    simp only [holds.head_cons,Option.bind_some,storeAssignment_unnamed entry holds]
    exact ⟨_,_,_,rfl,rfl⟩
  | invalid c word value text plain first blank =>
    obtain ⟨hash,semicolon⟩ := not_or.mp plain
    rw [text] at holds begins ⊢
    obtain ⟨name,q,held,stores⟩ := storeAssignment_named entry holds (begins c rfl) first
    rw [List.cons_append] at holds ⊢
    simp only [holds.head_cons,Option.bind_some,if_neg hash,if_neg semicolon,stores]
    obtain ⟨_,refused⟩ | ⟨some,_⟩ := storeValue_holds held _
    · exact ⟨_,_,_,refused,rfl⟩
    · exact absurd blank some
  | entry c word value text plain first some =>
    obtain ⟨hash,semicolon⟩ := not_or.mp plain
    rw [text] at holds begins ⊢
    obtain ⟨name,q,held,stores⟩ := storeAssignment_named entry holds (begins c rfl) first
    rw [List.cons_append] at holds ⊢
    simp only [holds.head_cons,Option.bind_some,if_neg hash,if_neg semicolon,stores]
    obtain ⟨blank,_⟩ | ⟨_,place,after,kept,last⟩ := storeValue_holds held _
    · exact absurd blank some
    · exact ⟨_,_,_,kept,rfl,rfl,rfl,cString_holds last⟩

theorem keywordTable_single : ∀ keyword ∈ keywordTable, ∀ other ∈ keywordTable,
    SerialIp.stringToLower keyword.name = SerialIp.stringToLower other.name →
      keyword.token = other.token ∧ keyword.type = other.type := by decide +kernel

theorem keywordTable_tokens : ∀ keyword ∈ keywordTable,
    keyword.token ≠ .BLANKLINE ∧ keyword.token ≠ .COMMENT ∧ keyword.token ≠ .INVALID := by decide

theorem enter_find (entered : List (List UInt8 × Keyword)) (keyword : Keyword) (name : List UInt8) :
    ((enter entered keyword).find? (·.1 = name)).map (·.2) =
      ((entered.find? (·.1 = name)).map (·.2)).or
        (if SerialIp.stringToLower keyword.name = name then some keyword else none) := by
  unfold enter
  dsimp only
  by_cases present : (entered.find? (·.1 = SerialIp.stringToLower keyword.name)).isSome
  · rw [if_pos present]
    by_cases same : SerialIp.stringToLower keyword.name = name
    · rw [same] at present
      obtain ⟨pair,found⟩ := Option.isSome_iff_exists.mp present
      rw [found]
      rfl
    · rw [if_neg same,Option.or_none]
  · rw [if_neg present,List.find?_append,Option.map_or,List.find?_singleton]
    by_cases same : SerialIp.stringToLower keyword.name = name <;> simp [same]

theorem keywordTableInit_find (table : List Keyword) (name : List UInt8) :
    ((keywordTableInit table).find? (·.1 = name)).map (·.2) =
      table.find? fun keyword => SerialIp.stringToLower keyword.name = name := by
  have built (entered : List (List UInt8 × Keyword)) :
      ((table.foldl enter entered).find? (·.1 = name)).map (·.2) =
        ((entered.find? (·.1 = name)).map (·.2)).or
          (table.find? fun keyword => SerialIp.stringToLower keyword.name = name) := by
    induction table generalizing entered with
    | nil => rw [List.foldl_nil,List.find?_nil,Option.or_none]
    | cons keyword table ih =>
      rw [List.foldl_cons,ih,enter_find,Option.or_assoc,List.find?_cons]
      by_cases same : SerialIp.stringToLower keyword.name = name <;> simp [same]
  exact built []

/-- hsearch finds what keyword_table_init has entered. -/
theorem hsearch_entered (name : List UInt8) :
    hsearch name = ((keywordTableInit keywordTable).find? (·.1 = name)).map (·.2) :=
  (keywordTableInit_find keywordTable name).symm

theorem lookUp_known {keyword : Keyword} (member : keyword ∈ keywordTable) :
    lookUp (SerialIp.stringToLower keyword.name) = (keyword.token,keyword.type) := by
  unfold lookUp hsearch
  split
  · rename_i other found
    have matched := List.find?_some found
    have same := of_decide_eq_true matched
    obtain ⟨token,type⟩ := keywordTable_single _ (List.mem_of_find?_eq_some found) _ member same
    rw [token,type]
  · rename_i absent
    exact absurd (decide_eq_true rfl) (List.find?_eq_none.mp absent keyword member)

theorem lookUp_unknown {name : List UInt8}
    (absent : ∀ keyword ∈ keywordTable, SerialIp.stringToLower keyword.name ≠ name) :
    lookUp name = (.UNKNOWN,.STRING) := by
  have none : hsearch name = none := List.find?_eq_none.mpr fun keyword member found =>
    absent keyword member (of_decide_eq_true found)
  unfold lookUp
  rw [none]

theorem lookUp_plain (name : List UInt8) : (lookUp name).1 ≠ .BLANKLINE ∧
    (lookUp name).1 ≠ .COMMENT ∧ (lookUp name).1 ≠ .INVALID := by
  unfold lookUp
  split
  · exact keywordTable_tokens _ (List.mem_of_find?_eq_some ‹_›)
  · decide

def Comment (text : List UInt8) : Prop := text.head? = some 35 ∨ text.head? = some 59

def Assigns (text : List UInt8) : Prop :=
  text ≠ [] ∧ ¬Comment text ∧ 61 ∈ text ∧ text.head? ≠ some 61

def keyOf (text : List UInt8) : List UInt8 := key (text.takeWhile (· ≠ 61))

def valueOf (text : List UInt8) : List UInt8 := strip (text.dropWhile (· ≠ 61)).tail

/-- The token, and with it the entry, that the grammar gives a line with this text. -/
structure Follows (text : List UInt8) (token : Token) (type : ValueType) (value : List UInt8) :
    Prop where
  blank : token = .BLANKLINE ↔ text = []
  comment : token = .COMMENT ↔ Comment text
  unassigned : text ≠ [] → ¬Comment text → 61 ∉ text ∨ text.head? = some 61 → token = .UNKNOWN
  invalid : token = .INVALID ↔ Assigns text ∧ valueOf text = []
  known : Assigns text → valueOf text ≠ [] → ∀ keyword ∈ keywordTable,
    SerialIp.stringToLower keyword.name = keyOf text → token = keyword.token ∧ type = keyword.type
  unknown : Assigns text → valueOf text ≠ [] →
    (∀ keyword ∈ keywordTable, SerialIp.stringToLower keyword.name ≠ keyOf text) →
      token = .UNKNOWN ∧ type = .STRING
  kept : Assigns text → valueOf text ≠ [] → value = valueOf text

theorem strip_eq_nil_iff (value : List UInt8) : strip value = [] ↔ value.dropWhile isspace = [] := by
  constructor
  · intro blank
    apply Classical.byContradiction
    intro some
    obtain ⟨c,rest,same⟩ := List.exists_cons_of_ne_nil some
    have begins := skipWhiteSpace_begins value c (congrArg List.head? same)
    refine retrieveConfigurationEntryName_nonempty (s := rest) begins ?_
    rw [← same]
    exact blank
  · intro blank
    unfold strip
    rw [blank]
    rfl

theorem Follows.refused {text : List UInt8} {token : Token} {type : ValueType} {value : List UInt8}
    (none : ¬Assigns text) (blank : token = .BLANKLINE ↔ text = [])
    (comment : token = .COMMENT ↔ Comment text)
    (unassigned : text ≠ [] → ¬Comment text → 61 ∉ text ∨ text.head? = some 61 → token = .UNKNOWN)
    (valid : token ≠ .INVALID) : Follows text token type value where
  blank := blank
  comment := comment
  unassigned := unassigned
  invalid := iff_of_false valid fun both => none both.1
  known assigns := absurd assigns none
  unknown assigns := absurd assigns none
  kept assigns := absurd assigns none

theorem Follows.assigned {text : List UInt8} {token : Token} {type : ValueType} {value : List UInt8}
    (assigns : Assigns text) (full : token ≠ .BLANKLINE) (remark : token ≠ .COMMENT)
    (invalid : token = .INVALID ↔ valueOf text = [])
    (read : valueOf text ≠ [] → lookUp (keyOf text) = (token,type) ∧ value = valueOf text) :
    Follows text token type value where
  blank := iff_of_false full assigns.1
  comment := iff_of_false remark assigns.2.1
  unassigned _ _ none := none.elim (absurd assigns.2.2.1) fun head => absurd head assigns.2.2.2
  invalid := invalid.trans (and_iff_right assigns).symm
  known _ some keyword member same := by
    have found := (read some).1
    rw [← same,lookUp_known member] at found
    exact Prod.mk.inj found.symm
  unknown _ some absent := by
    have missed := (read some).1
    rw [lookUp_unknown absent] at missed
    exact Prod.mk.inj missed.symm
  kept _ some := (read some).2

theorem valueOf_assignment {word : List UInt8} (first : 61 ∉ word) (value : List UInt8) :
    valueOf (word ++ 61::value) = strip value := by
  unfold valueOf
  rw [(assignment_split first value).2]
  rfl

theorem keyOf_assignment {word : List UInt8} (first : 61 ∉ word) (value : List UInt8) :
    keyOf (word ++ 61::value) = key word := by
  unfold keyOf
  rw [(assignment_split first value).1]

theorem comment_cons (c : UInt8) (rest : List UInt8) : Comment (c::rest) ↔ c = 35 ∨ c = 59 := by
  simp [Comment]

theorem assigns_text {c : UInt8} {word : List UInt8} (plain : ¬(c = 35 ∨ c = 59)) (first : 61 ∉ c::word)
    (value : List UInt8) : Assigns (c::word ++ 61::value) := by
  refine ⟨nofun,(comment_cons ..).not.mpr plain,?_,fun same => first ?_⟩
  · exact List.mem_append_right _ List.mem_cons_self
  · rw [← Option.some.inj same]
    exact List.mem_cons_self

theorem Reads.follows {line : List UInt8} {result : Except Token ConfigEntry} {token : Token}
    {type : ValueType} {value : List UInt8}
    (outcome : match result with
      | .error missing => token = missing
      | .ok read => token = read.token ∧ type = read.type ∧ value = read.value)
    (reads : Reads line result) : Follows (content line) token type value := by
  cases reads with
  | blank empty =>
    obtain rfl := outcome
    rw [empty]
    exact .refused (fun assigns => assigns.1 rfl) (iff_of_true rfl rfl) (by simp [Comment])
      (fun some => absurd rfl some) nofun
  | comment c rest text mark =>
    obtain rfl := outcome
    rw [text]
    have marked := (comment_cons c rest).mpr mark
    exact .refused (fun assigns => assigns.2.1 marked) (iff_of_false nofun nofun) (iff_of_true rfl marked)
      (fun _ plain => absurd marked plain) nofun
  | unassigned c rest text plain absent =>
    obtain rfl := outcome
    rw [text]
    exact .refused (fun assigns => absent assigns.2.2.1) (iff_of_false nofun nofun)
      (iff_of_false nofun ((comment_cons c rest).not.mpr plain)) (fun _ _ _ => rfl) nofun
  | unnamed rest text =>
    obtain rfl := outcome
    rw [text]
    exact .refused (fun assigns => assigns.2.2.2 rfl) (iff_of_false nofun nofun)
      (iff_of_false nofun ((comment_cons 61 rest).not.mpr (by decide))) (fun _ _ _ => rfl) nofun
  | invalid c word value text plain first blank =>
    obtain rfl := outcome
    rw [text]
    have empty : valueOf (c::word ++ 61::value) = [] :=
      (valueOf_assignment first value).trans ((strip_eq_nil_iff value).mpr blank)
    exact .assigned (assigns_text plain first value) nofun nofun (iff_of_true rfl empty)
      (absurd empty)
  | entry c word value text plain first some =>
    obtain ⟨rfl,rfl,rfl⟩ := outcome
    rw [text]
    have stripped := valueOf_assignment first value
    obtain ⟨full,remark,valid⟩ := lookUp_plain (key (c::word))
    refine .assigned (assigns_text plain first value) full remark (iff_of_false valid ?_)
      fun _ => ⟨?_,stripped.symm⟩
    · exact fun empty => some ((strip_eq_nil_iff value).mp (stripped.symm.trans empty))
    · rw [keyOf_assignment first value]

/-- parse_entry reads every line as the grammar says. -/
theorem parseEntry_grammar (line rest : List UInt8) (entry : Entry) (clean : 0 ∉ line) :
    ∃ token buffer after, parseEntry (line ++ 0::rest) entry = some (token,buffer,after) ∧
      Follows (content line) token after.type (cString (buffer.drop after.value)) := by
  obtain ⟨token,buffer,after,parsed,outcome⟩ := parseEntry_refines line rest entry clean
  refine ⟨token,buffer,after,parsed,Reads.follows ?_ (parseEntry_reads line)⟩
  split at outcome
  · exact outcome
  · exact ⟨outcome.1,outcome.2.2⟩

theorem parseEntry_grammar_speed : ∃ token buffer after,
    parseEntry (ascii "Speed = 9600\r\n" ++ 0::[]) ⟨[],.UNKNOWN,.STRING,0⟩ = some (token,buffer,after) ∧
      Follows (content (ascii "Speed = 9600\r\n")) token after.type (cString (buffer.drop after.value)) :=
  parseEntry_grammar (ascii "Speed = 9600\r\n") [] ⟨[],.UNKNOWN,.STRING,0⟩ (by decide)

example : content (ascii "\t pid file = a\rb\n") = ascii "pid file = a" := by decide

end SerialIp.Line
