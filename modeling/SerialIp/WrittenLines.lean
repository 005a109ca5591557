import SerialIp.ConfigurationSections
import SerialIp.EscapeMeaning
import SerialIp.LineGrammar
import SerialIp.LockDirectory

/-! The lines that give a keyword a value, however they are spelled, and what the
configuration reader makes of such a line and of its value. -/
namespace SerialIp

def Bare (text : List UInt8) : Prop := text.dropWhile isspace = text ∧ text.rdropWhile isspace = text

instance (text : List UInt8) : Decidable (Bare text) := inferInstanceAs (Decidable (_ ∧ _))

/-- Spaces and tabs around the name and the value, and the end that the line may have. -/
structure Layout where
  indent : List UInt8
  before : List UInt8
  behind : List UInt8
  trail : List UInt8
  carriage : Bool
  blank : ∀ c ∈ indent ++ before ++ behind ++ trail, c = 32 ∨ c = 9

def Layout.text (l : Layout) (name value : List UInt8) : List UInt8 :=
  name ++ l.before ++ 61::(l.behind ++ value ++ l.trail)

def Layout.line (l : Layout) (name value : List UInt8) : List UInt8 :=
  l.indent ++ l.text name value ++ if l.carriage then [13] else []

/-- Some keyword of the token, in letters of either case, with the value. -/
structure Gives (token : Token) (value line : List UInt8) : Prop where
  some : value ≠ []
  bare : Bare value
  plain : ∀ c ∈ value, c ≠ 0 ∧ c ≠ 10 ∧ c ≠ 13
  spelled : ∃ keyword ∈ keywordTable, keyword.token = token ∧ ∃ (l : Layout) (name : List UInt8),
    stringToLower name = stringToLower keyword.name ∧ line = l.line name value
  short : line.length < BUFSIZ - 1

/-- A blank line or a comment. -/
structure Remark (line : List UInt8) : Prop where
  clean : ∀ c ∈ line, c ≠ 0 ∧ c ≠ 10
  void : Line.content line = [] ∨ Line.Comment (Line.content line)
  short : line.length < BUFSIZ - 1

/-- The lines for these things in their order, with remarks anywhere among them. -/
inductive Lays {ι : Type} (Given : ι → List UInt8 → Prop) : List ι → List (List UInt8) → Prop
  | nil : Lays Given [] []
  | remark {items : List ι} {line : List UInt8} {lines : List (List UInt8)} (void : Remark line)
      (rest : Lays Given items lines) : Lays Given items (line::lines)
  | item {item : ι} {items : List ι} {line : List UInt8} {lines : List (List UInt8)}
      (given : Given item line) (rest : Lays Given items lines) : Lays Given (item::items) (line::lines)

def numeral (n : Int) : List UInt8 := (decimal n).map fun c => UInt8.ofNat c.toNat

def booleanNames : List (Int × List UInt8) :=
  [(0,ascii "0"),(0,ascii "off"),(0,ascii "false"),(0,ascii "no"),
    (1,ascii "1"),(1,ascii "on"),(1,ascii "true"),(1,ascii "yes")]

def parityNames : List (Nat × List UInt8) :=
  [(PARITY_NONE,ascii "none"),(PARITY_ODD,ascii "odd"),(PARITY_EVEN,ascii "even")]

def flowcontrolNames : List (Nat × List UInt8) :=
  [(HARDWARE_FLOW,ascii "hardware"),(HARDWARE_FLOW,ascii "rts/cts"),(SOFTWARE_FLOW,ascii "software"),
    (SOFTWARE_FLOW,ascii "xon/xoff"),(NO_FLOWCONTROL,ascii "none")]

def Named {ν : Type} (names : List (ν × List UInt8)) (n : ν) (value : List UInt8) : Prop :=
  (n,stringToLower value) ∈ names

instance {ν : Type} [DecidableEq ν] (names : List (ν × List UInt8)) (n : ν) (value : List UInt8) :
    Decidable (Named names n value) := inferInstanceAs (Decidable (_ ∈ _))

theorem tolower_isspace : ∀ c, isspace (tolower c) = isspace c := Escape.forall_byte (by decide +kernel)

/-- The bytes that parse_entry and its callers look for. -/
def marks : List UInt8 := [0,10,13,35,59,61]

theorem tolower_mark : ∀ c, ∀ mark ∈ marks, tolower c = mark ↔ c = mark :=
  Escape.forall_byte (by decide +kernel)

theorem rdropWhile_append_of_pos {p : UInt8 → Bool} {after : List UInt8} (drops : ∀ c ∈ after, p c = true)
    (text : List UInt8) : (text ++ after).rdropWhile p = text.rdropWhile p := by
  unfold List.rdropWhile
  rw [List.reverse_append,List.dropWhile_append_of_pos fun c member => drops c (List.mem_reverse.mp member)]

theorem Bare.begins {c : UInt8} {text : List UInt8} (bare : Bare (c::text)) : isspace c = false := by
  have other := List.head?_dropWhile_not isspace (c::text)
  rw [bare.1] at other
  simpa using other

theorem Bare.dropWhile {text : List UInt8} (bare : Bare text) (some : text ≠ []) (rest : List UInt8) :
    (text ++ rest).dropWhile isspace = text ++ rest := by
  obtain ⟨c,text,rfl⟩ := List.exists_cons_of_ne_nil some
  rw [List.cons_append,List.dropWhile_cons_of_neg (by simp [bare.begins])]

theorem Bare.of_lower {text : List UInt8} (bare : Bare (stringToLower text)) : Bare text := by
  have same : isspace ∘ tolower = isspace := funext tolower_isspace
  unfold Bare stringToLower List.rdropWhile at bare
  rw [List.dropWhile_map,← List.map_reverse,List.dropWhile_map,← List.map_reverse,same] at bare
  have long := congrArg List.length bare.1
  have wide := congrArg List.length bare.2
  rw [List.length_map,List.length_map] at long wide
  refine ⟨(List.dropWhile_suffix isspace).eq_of_length long,?_⟩
  exact List.rdropWhile_prefix isspace text |>.eq_of_length wide

theorem keywordTable_names : ∀ keyword ∈ keywordTable,
    keyword.name ≠ [] ∧ keyword.name.length < SIZE_KEYWORD ∧ Bare (stringToLower keyword.name) ∧
      ∀ mark ∈ marks, mark ∉ stringToLower keyword.name := by
  decide +kernel

/-- What is left of a keyword in letters of either case. -/
structure Spelling (keyword : Keyword) (name : List UInt8) : Prop where
  some : name ≠ []
  short : name.length < SIZE_KEYWORD
  bare : Bare name
  plain : ∀ mark ∈ marks, mark ∉ name

theorem spelling {keyword : Keyword} {name : List UInt8} (member : keyword ∈ keywordTable)
    (same : stringToLower name = stringToLower keyword.name) : Spelling keyword name := by
  obtain ⟨some,short,bare,plain⟩ := keywordTable_names keyword member
  have long := congrArg List.length same
  unfold stringToLower at long
  rw [List.length_map,List.length_map] at long
  refine ⟨?_,long ▸ short,Bare.of_lower (same ▸ bare),fun mark one inside => plain mark one ?_⟩
  · exact List.ne_nil_of_length_pos (long ▸ List.length_pos_of_ne_nil some)
  · rw [← same,← (tolower_mark mark mark one).mpr rfl]
    exact List.mem_map_of_mem inside

/-- An assignment is read as one, whatever its line is. -/
theorem parseEntry_assignment {line word value : List UInt8} (text : Line.content line = word ++ 61::value)
    (plain : ∀ mark ∈ marks, mark ∉ word) (named : word ≠ []) (some : Line.strip value ≠ []) :
    parseEntry line = .ok ⟨(lookUp (Line.key word)).1,(lookUp (Line.key word)).2,Line.strip value⟩ := by
  obtain ⟨c,word,rfl⟩ := List.exists_cons_of_ne_nil named
  have first : 61 ∉ c::word := plain 61 (by decide)
  have mark : ¬(c = 35 ∨ c = 59) := by
    intro remark
    obtain rfl | rfl := remark
    · exact plain 35 (by decide) List.mem_cons_self
    · exact plain 59 (by decide) List.mem_cons_self
  have reads := Line.parseEntry_reads line
  generalize parseEntry line = result at reads ⊢
  cases reads with
  | blank empty =>
    rw [text] at empty
    contradiction
  | comment d rest begins remark =>
    rw [text] at begins
    exact absurd ((List.cons.inj begins).1 ▸ remark) mark
  | unassigned d rest whole other absent =>
    rw [text] at whole
    exact absurd (whole ▸ List.mem_append_right _ List.mem_cons_self) absent
  | unnamed rest begins =>
    rw [text] at begins
    exact absurd ((List.cons.inj begins).1 ▸ List.mem_cons_self) first
  | invalid d other late whole unmarked before blank =>
    have split := Line.assignment_split before late
    rw [← whole,text,(Line.assignment_split first value).1,(Line.assignment_split first value).2] at split
    obtain ⟨-,same⟩ := List.cons.inj split.2
    exact absurd ((Line.strip_eq_nil_iff value).mpr (same ▸ blank)) some
  | entry d other late whole unmarked before full =>
    have split := Line.assignment_split before late
    rw [← whole,text,(Line.assignment_split first value).1,(Line.assignment_split first value).2] at split
    obtain ⟨-,same⟩ := List.cons.inj split.2
    rw [split.1,same]

namespace Layout
variable (l : Layout)

theorem blanks {c : UInt8} (member : c ∈ l.indent ∨ c ∈ l.before ∨ c ∈ l.behind ∨ c ∈ l.trail) :
    c = 32 ∨ c = 9 :=
  l.blank c (by simpa [or_assoc] using member)

theorem spaces {c : UInt8} (member : c ∈ l.indent ∨ c ∈ l.before ∨ c ∈ l.behind ∨ c ∈ l.trail) :
    isspace c = true := by
  obtain rfl | rfl := l.blanks member
  · rfl
  · rfl

variable {keyword : Keyword} {name value : List UInt8}

theorem text_plain (spelling : Spelling keyword name)
    (plain : ∀ c ∈ value, c ≠ 0 ∧ c ≠ 10 ∧ c ≠ 13) {c : UInt8}
    (member : c ∈ l.indent ++ l.text name value) :
    c ≠ 0 ∧ c ≠ 10 ∧ c ≠ 13 := by
  have blank (member : c ∈ l.indent ∨ c ∈ l.before ∨ c ∈ l.behind ∨ c ∈ l.trail) :
      c ≠ 0 ∧ c ≠ 10 ∧ c ≠ 13 := by
    obtain rfl | rfl := l.blanks member <;> decide
  unfold text at member
  simp only [List.mem_append,List.mem_cons] at member
  obtain indent | (name | before) | rfl | (behind | value) | trail := member
  · exact blank (.inl indent)
  · have other (mark : UInt8) (one : mark ∈ marks) : c ≠ mark := fun same =>
      spelling.plain mark one (same ▸ name)
    exact ⟨other 0 (by decide),other 10 (by decide),other 13 (by decide)⟩
  · exact blank (.inr (.inl before))
  · decide
  · exact blank (.inr (.inr (.inl behind)))
  · exact plain c value
  · exact blank (.inr (.inr (.inr trail)))

theorem line_plain (spelling : Spelling keyword name) (plain : ∀ c ∈ value, c ≠ 0 ∧ c ≠ 10 ∧ c ≠ 13)
    {c : UInt8} (member : c ∈ l.line name value) : c ≠ 0 ∧ c ≠ 10 := by
  obtain inside | last := List.mem_append.mp member
  · obtain ⟨null,feed,_⟩ := l.text_plain spelling plain inside
    exact ⟨null,feed⟩
  · split at last
    · rw [List.mem_singleton.mp last]
      decide
    · nomatch last

theorem content_line (spelling : Spelling keyword name)
    (plain : ∀ c ∈ value, c ≠ 0 ∧ c ≠ 10 ∧ c ≠ 13) :
    Line.content (l.line name value) = l.text name value := by
  have line : (l.line name value).takeWhile (· ≠ 10) = l.line name value :=
    List.takeWhile_eq_self_iff.mpr fun c member => decide_eq_true (l.line_plain spelling plain member).2
  have body : (l.line name value).takeWhile (· ≠ 13) = l.indent ++ l.text name value := by
    unfold Layout.line
    rw [List.takeWhile_append_of_pos fun c member =>
      decide_eq_true (l.text_plain spelling plain member).2.2]
    split
    · exact List.append_nil _
    · exact List.append_nil _
  unfold Line.content
  rw [line,body,List.dropWhile_append_of_pos fun c member => l.spaces (.inl member)]
  unfold text
  rw [List.append_assoc]
  exact spelling.bare.dropWhile spelling.some _

theorem key_word (spelling : Spelling keyword name) : Line.key (name ++ l.before) = stringToLower name := by
  have long : name.length ≤ 63 := Nat.le_of_lt_succ spelling.short
  unfold Line.key
  rw [List.take_append,List.take_of_length_le long,rdropWhile_append_of_pos ?_,spelling.bare.2]
  · rfl
  · exact fun c member => l.spaces (.inr (.inl (List.mem_of_mem_take member)))

theorem strip_value (some : value ≠ []) (bare : Bare value) :
    Line.strip (l.behind ++ value ++ l.trail) = value := by
  unfold Line.strip
  rw [List.append_assoc,List.dropWhile_append_of_pos fun c member => l.spaces (.inr (.inr (.inl member))),
    bare.dropWhile some,rdropWhile_append_of_pos fun c member => l.spaces (.inr (.inr (.inr member))),bare.2]

end Layout

/-- The newline at its end is no part of what a line says. -/
theorem content_newline {line : List UInt8} (clean : ∀ c ∈ line, c ≠ 0 ∧ c ≠ 10) :
    cString (line ++ [10]) = line ++ [10] ∧ Line.content (line ++ [10]) = Line.content line := by
  constructor
  · refine List.takeWhile_eq_self_iff.mpr fun c member => decide_eq_true ?_
    obtain inside | last := List.mem_append.mp member
    · exact (clean c inside).1
    · rw [List.mem_singleton.mp last]
      decide
  · unfold Line.content
    rw [List.takeWhile_append_of_pos fun c member => decide_eq_true (clean c member).2,
      List.takeWhile_eq_self_iff.mpr fun c member => decide_eq_true (clean c member).2]
    change ((line ++ []).takeWhile _).dropWhile _ = _
    rw [List.append_nil]

theorem Gives.clean {token : Token} {value line : List UInt8} (gives : Gives token value line) :
    ∀ c ∈ line, c ≠ 0 ∧ c ≠ 10 := by
  obtain ⟨_,_,plain,⟨keyword,member,_,l,name,same,rfl⟩,_⟩ := gives
  exact fun c => l.line_plain (spelling member same) plain

theorem Gives.parsed {token : Token} {value line : List UInt8} (gives : Gives token value line) :
    parseEntry (cString (line ++ [10])) = .ok ⟨token,token.type,value⟩ := by
  obtain ⟨whole,content⟩ := content_newline gives.clean
  obtain ⟨some,bare,plain,⟨keyword,member,rfl,l,name,same,rfl⟩,_⟩ := gives
  have spelling := spelling member same
  rw [l.content_line spelling plain] at content
  have stripped := l.strip_value some bare
  have plain : ∀ mark ∈ marks, mark ∉ name ++ l.before := by
    intro mark one inside
    obtain word | blank := List.mem_append.mp inside
    · exact spelling.plain mark one word
    · obtain rfl | rfl := l.blanks (.inr (.inl blank))
      · exact absurd one (by decide)
      · exact absurd one (by decide)
  have named : name ++ l.before ≠ [] := List.append_ne_nil_of_left_ne_nil spelling.some _
  have full : Line.strip (l.behind ++ value ++ l.trail) ≠ [] := by
    rw [stripped]
    exact some
  have parsed := parseEntry_assignment content plain named full
  rw [whole,parsed,stripped,l.key_word spelling,same,Line.lookUp_known member,keywordTable_type keyword member]

def digitBytes (n : Nat) : List UInt8 := (Nat.toDigits 10 n).map fun c => UInt8.ofNat c.toNat

theorem digit_byte {c : Char} (digit : c.isDigit = true) :
    (UInt8.ofNat c.toNat).toNat = c.toNat ∧ 48 ≤ c.toNat ∧ c.toNat ≤ 57 := by
  obtain ⟨low,high⟩ := Char.isDigit_iff_toNat.mp digit
  refine ⟨?_,low,high⟩
  rw [UInt8.toNat_ofNat',Nat.mod_eq_of_lt]
  exact Nat.lt_of_le_of_lt high (by decide)

theorem foldl_digits (digits : List Char) (all : ∀ c ∈ digits, c.isDigit = true) (start : Nat) :
    (digits.map fun c => UInt8.ofNat c.toNat).foldl (fun (n : Int) c => 10 * n + (c.toNat - 48 : Int)) start =
      Nat.ofDigitChars 10 digits start := by
  induction digits generalizing start with
  | nil => simp
  | cons c digits ih =>
    obtain ⟨first,later⟩ := List.forall_mem_cons.mp all
    obtain ⟨same,low,_⟩ := digit_byte first
    have value : 10 * (start : Int) + ((UInt8.ofNat c.toNat).toNat - 48 : Int) =
        ((10 * start + (c.toNat - 48) : Nat) : Int) := by
      rw [same]
      omega
    rw [List.map_cons,List.foldl_cons,value,ih later,Nat.ofDigitChars_cons]
    rfl

theorem digitBytes_digit {n : Nat} {c : UInt8} (member : c ∈ digitBytes n) : isdigit c = true := by
  obtain ⟨d,inside,rfl⟩ := List.mem_map.mp member
  obtain ⟨same,low,high⟩ := digit_byte (Nat.isDigit_of_mem_toDigits (by decide) (by decide) inside)
  simp only [isdigit,Bool.and_eq_true,decide_eq_true_eq,UInt8.le_iff_toNat_le,same]
  exact ⟨low,high⟩

theorem decimalDigits_digitBytes (n : Nat) : decimalDigits (digitBytes n) = n := by
  have all : (digitBytes n).takeWhile isdigit = digitBytes n :=
    List.takeWhile_eq_self_iff.mpr fun c member => digitBytes_digit member
  have digits : ∀ c ∈ Nat.toDigits 10 n, c.isDigit = true := fun c member =>
    Nat.isDigit_of_mem_toDigits (by decide) (by decide) member
  unfold decimalDigits
  rw [all]
  exact (foldl_digits _ digits 0).trans (congrArg _ Nat.ofDigitChars_ten_toDigits)

theorem isdigit_other : ∀ c, isdigit c = true → isspace c = false ∧ c ≠ 45 ∧ c ≠ 43 :=
  Escape.forall_byte (by decide +kernel)

theorem numeral_eq (n : Int) :
    numeral n = if n < 0 then 45::digitBytes n.natAbs else digitBytes n.natAbs := by
  unfold numeral decimal
  split
  · rfl
  · rfl

theorem strtol_numeral {n : Int} (low : LONG_MIN ≤ n) (high : n ≤ LONG_MAX) : strtol (numeral n) = n := by
  have value := decimalDigits_digitBytes n.natAbs
  rw [numeral_eq]
  by_cases negative : n < 0
  · rw [if_pos negative]
    change max LONG_MIN (-decimalDigits (digitBytes n.natAbs)) = n
    rw [value]
    omega
  · rw [if_neg negative]
    have digits {c : UInt8} := digitBytes_digit (n := n.natAbs) (c := c)
    generalize digitBytes n.natAbs = text at value digits ⊢
    have bound : min LONG_MAX (decimalDigits text) = n := by
      rw [value]
      omega
    cases text with
    | nil => exact bound
    | cons c text =>
      obtain ⟨other,minus,plus⟩ := isdigit_other c (digits List.mem_cons_self)
      unfold strtol
      rw [List.dropWhile_cons_of_neg (by simp [other])]
      split
      · exact absurd (List.cons.inj ‹_›).1 minus
      · exact absurd (List.cons.inj ‹_›).1 plus
      · exact bound

theorem atoi_numeral {n : Int} (low : -2 ^ 31 ≤ n) (high : n < 2 ^ 31) : atoi (numeral n) = n := by
  unfold atoi
  rw [strtol_numeral (by unfold LONG_MIN; omega) (by unfold LONG_MAX; omega)]
  exact Int.bmod_eq_of_le (by omega) (by omega)

theorem booleanStringHandle_named {n : Int} {value : List UInt8} (named : Named booleanNames n value) :
    booleanStringHandle value [] = (n,[]) ∧ n ≠ -1 := by
  simp only [Named,booleanNames,List.mem_cons,Prod.mk.injEq,List.not_mem_nil,or_false] at named
  unfold booleanStringHandle
  obtain ⟨rfl,same⟩ | ⟨rfl,same⟩ | ⟨rfl,same⟩ | ⟨rfl,same⟩ | ⟨rfl,same⟩ | ⟨rfl,same⟩ |
    ⟨rfl,same⟩ | ⟨rfl,same⟩ := named <;>
  · rw [same]
    decide

theorem saveBoolean_named {n : Int} {value : List UInt8} (named : Named booleanNames n value) (old : Int) :
    saveBoolean value old [] = (false,n,[]) := by
  obtain ⟨handled,valid⟩ := booleanStringHandle_named named
  unfold saveBoolean
  rw [handled]
  dsimp only
  rw [decide_eq_false valid]

theorem parityValue_named {n : Nat} {value : List UInt8} (named : Named parityNames n value) :
    parityValue value = some n := by
  simp only [Named,parityNames,List.mem_cons,Prod.mk.injEq,List.not_mem_nil,or_false,stringToLower] at named
  unfold parityValue strcaseeq
  obtain ⟨rfl,same⟩ | ⟨rfl,same⟩ | ⟨rfl,same⟩ := named <;>
  · rw [same]
    rfl

theorem flowcontrolValue_named {n : Nat} {value : List UInt8} (named : Named flowcontrolNames n value) :
    flowcontrolValue value = some n := by
  simp only [Named,flowcontrolNames,List.mem_cons,Prod.mk.injEq,List.not_mem_nil,or_false,stringToLower] at named
  unfold flowcontrolValue strcaseeq
  obtain ⟨rfl,same⟩ | ⟨rfl,same⟩ | ⟨rfl,same⟩ | ⟨rfl,same⟩ | ⟨rfl,same⟩ := named <;>
  · rw [same]
    rfl

theorem Gives.lineAction {token : Token} {value line : List UInt8} (gives : Gives token value line) :
    lineAction (line ++ [10]) = ConfigEntry.action ⟨token,token.type,value⟩ := by
  unfold SerialIp.lineAction
  rw [gives.parsed]

theorem Remark.lineAction {line : List UInt8} (remark : Remark line) : lineAction (line ++ [10]) = .skip := by
  obtain ⟨clean,void,_⟩ := remark
  obtain ⟨whole,content⟩ := content_newline clean
  have reads := Line.parseEntry_reads (line ++ [10])
  unfold SerialIp.lineAction
  rw [whole]
  rw [← content] at void
  generalize parseEntry (line ++ [10]) = result at reads ⊢
  cases reads with
  | blank | comment | unassigned | unnamed | invalid => rfl
  | entry c word value text plain =>
    rw [text] at void
    obtain empty | comment := void
    · exact absurd empty (List.cons_ne_nil _ _)
    · exact absurd ((Line.comment_cons ..).mp comment) plain

theorem Lays.short {ι : Type} {Given : ι → List UInt8 → Prop} {items : List ι} {lines : List (List UInt8)}
    (fits : ∀ item line, Given item line → 10 ∉ line ∧ line.length < BUFSIZ - 1)
    (lays : Lays Given items lines) : ∀ line ∈ lines, 10 ∉ line ∧ line.length < BUFSIZ - 1 := by
  induction lays with
  | nil => exact nofun
  | remark void rest ih =>
    exact List.forall_mem_cons.mpr ⟨⟨fun member => (void.clean 10 member).2 rfl,void.short⟩,ih⟩
  | item given rest ih => exact List.forall_mem_cons.mpr ⟨fits _ _ given,ih⟩

theorem Gives.fits {token : Token} {value line : List UInt8} (gives : Gives token value line) :
    10 ∉ line ∧ line.length < BUFSIZ - 1 :=
  ⟨fun member => (gives.clean 10 member).2 rfl,gives.short⟩

end SerialIp
