import SerialIp.EscapeMeaning

/-! Where escape_sequence_copy leaves its strings. It writes no more than it reads, and
passes the terminating NUL of the source exactly with an octal escape of fewer than three
digits that stands at the end. -/
namespace SerialIp.Escape
open Library Library.CString

/-- Read from left to right, with the byte behind each octal escape of fewer than three
digits taken along, the string ends with such an escape. -/
inductive CutShort : List UInt8 → Prop
  | last {part : Part} (cuts : part.Cuts []) (short : part.Short) : CutShort part.text
  | short {part : Part} {c : UInt8} {later : List UInt8} (cuts : part.Cuts (c::later))
      (short : part.Short) (rest : CutShort later) : CutShort (part.text ++ c::later)
  | whole {part : Part} {later : List UInt8} (cuts : part.Cuts later) (long : ¬part.Short)
      (rest : CutShort later) : CutShort (part.text ++ later)

/-- The copy ends, with no access outside the string with its NUL or outside a destination
of the same size. -/
def StaysInside (s : List UInt8) : Prop :=
  ∀ dest : List UInt8, dest.length = s.length + 1 → (escapeSequenceCopy dest (s ++ [0])).isSome

/-- The string is what is left of the source, its NUL the last byte, and there is room. -/
structure Fits (s : List UInt8) (t : Copying) : Prop where
  spans : Spans t.source t.s2 (s ++ [0])
  size : t.source.length = t.s2 + s.length + 1
  room : t.s1 + s.length < t.dest.length

section
variable {t : Copying} {part : Part} {c : UInt8} {s rest : List UInt8}

theorem copyLoop_past {source dest : List UInt8} {s1 s2 : Nat} (past : s2 = source.length) :
    copyLoop ⟨s1,s2,dest,source⟩ = none := by
  apply copyLoop_outside
  unfold turn
  rw [List.getElem?_eq_none (by exact ge_of_eq past)]
  rfl

/-- A turn stores one byte and takes the part, with the byte behind it if that is short. -/
theorem Fits.turns (fits : Fits (part.text ++ rest) t) (clean : 0 ∉ part.text)
    (cuts : part.Cuts rest) : ∃ dest source,
      copyLoop t = copyLoop
        ⟨t.s1 + 1,t.s2 + part.text.length + if part.Short then 1 else 0,dest,source⟩ ∧
      dest.length = t.dest.length ∧ source.length = t.source.length ∧
      Spans source (t.s2 + part.text.length) (rest ++ [0]) := by
  obtain ⟨spans,_,room⟩ := fits
  have pos := part.text_pos
  rw [List.append_assoc] at spans
  rw [List.length_append] at room
  obtain ⟨source,goes,behind,_⟩ := turn_part cuts clean (by omega) spans
  obtain ⟨_,_,kept⟩ := turn_progress goes
  exact ⟨_,source,copyLoop_next goes,List.length_set,kept,behind⟩

theorem Fits.whole (fits : Fits (part.text ++ rest) t) (clean : 0 ∉ part.text)
    (cuts : part.Cuts rest) (long : ¬part.Short) :
    ∃ next, copyLoop t = copyLoop next ∧ Fits rest next := by
  obtain ⟨dest,source,goes,wide,kept,behind⟩ := fits.turns clean cuts
  obtain ⟨_,size,room⟩ := fits
  have pos := part.text_pos
  rw [List.length_append] at size room
  rw [if_neg long] at goes
  exact ⟨_,goes,behind,by dsimp only; omega,by dsimp only; omega⟩

theorem Fits.short (fits : Fits (part.text ++ c::rest) t) (clean : 0 ∉ part.text)
    (cuts : part.Cuts (c::rest)) (short : part.Short) :
    ∃ next, copyLoop t = copyLoop next ∧ Fits rest next := by
  obtain ⟨dest,source,goes,wide,kept,behind⟩ := fits.turns clean cuts
  obtain ⟨_,size,room⟩ := fits
  rw [List.length_append,List.length_cons] at size room
  rw [if_pos short] at goes
  exact ⟨_,goes,behind.tail,by dsimp only; omega,by dsimp only; omega⟩

/-- At the end the NUL is taken along, and what is behind it is read. -/
theorem Fits.last (fits : Fits part.text t) (clean : 0 ∉ part.text) (cuts : part.Cuts [])
    (short : part.Short) : copyLoop t = none := by
  have whole : Fits (part.text ++ []) t := by rwa [List.append_nil]
  obtain ⟨dest,source,goes,_,kept,_⟩ := whole.turns clean cuts
  rw [goes,if_pos short]
  exact copyLoop_past (kept.trans fits.size).symm

theorem CutShort.leaves (cut : CutShort s) (clean : 0 ∉ s) (fits : Fits s t) :
    copyLoop t = none := by
  induction cut generalizing t with
  | last cuts short => exact fits.last clean cuts short
  | short cuts short _ ih =>
    obtain ⟨here,behind⟩ := not_or.mp (mt List.mem_append.mpr clean)
    obtain ⟨next,same,fits⟩ := fits.short here cuts short
    exact same.trans (ih (mt (List.mem_cons_of_mem _) behind) fits)
  | whole cuts long _ ih =>
    obtain ⟨here,behind⟩ := not_or.mp (mt List.mem_append.mpr clean)
    obtain ⟨next,same,fits⟩ := fits.whole here cuts long
    exact same.trans (ih behind fits)

/-- A backslash with nothing behind it ends the loop, as the NUL does. -/
theorem Fits.ends (fits : Fits s t) (stops : s = [] ∨ s = [92]) : (copyLoop t).isSome := by
  obtain ⟨spans,_,room⟩ := fits
  suffices ends : turn t = some none by
    rw [copyLoop_ends ends (by omega)]
    rfl
  unfold turn
  obtain rfl | rfl := stops
  · have found := spans.head
    rw [found]
    rfl
  · have found := spans.head
    have next := spans.tail.head
    rw [found]
    change (t.source[t.s2 + 1]? >>= _) = _
    rw [next]
    rfl

theorem Fits.stays (fits : Fits s t) (clean : 0 ∉ s) (whole : ¬CutShort s) :
    (copyLoop t).isSome := by
  induction s using parts_induction generalizing t with
  | empty => exact fits.ends (Or.inl rfl)
  | back => exact fits.ends (Or.inr rfl)
  | cons part rest cuts _ ih =>
    obtain ⟨here,behind⟩ := not_or.mp (mt List.mem_append.mpr clean)
    by_cases short : part.Short
    · cases rest with
      | nil =>
        rw [List.append_nil] at whole
        exact absurd (.last cuts short) whole
      | cons c rest =>
        obtain ⟨next,same,fits⟩ := fits.short here cuts short
        rw [same]
        exact ih rest (Nat.le_succ _) fits (mt (List.mem_cons_of_mem _) behind)
          fun cut => whole (.short cuts short cut)
    · obtain ⟨next,same,fits⟩ := fits.whole here cuts short
      rw [same]
      exact ih rest le_rfl fits behind fun cut => whole (.whole cuts short cut)

end

/-- The copy stays inside its strings if and only if the source does not end with an octal
escape that is cut short. -/
theorem stays_inside_iff (s : List UInt8) (clean : 0 ∉ s) : StaysInside s ↔ ¬CutShort s := by
  have fits (dest : List UInt8) (size : dest.length = s.length + 1) :
      Fits s ⟨0,0,dest,s ++ [0]⟩ :=
    ⟨⟨[],by simp⟩,by simp,by simp [size]⟩
  constructor
  · intro inside cut
    have left := cut.leaves clean (fits (s ++ [0]) (by simp))
    have ends := inside (s ++ [0]) (by simp)
    unfold escapeSequenceCopy at ends
    rw [left] at ends
    contradiction
  · intro whole dest size
    exact (fits dest size).stays clean whole

/-- `a\0n\01` -/
theorem stays_inside_iff_behind : ¬StaysInside [97,92,48,110,92,48,49] := by
  intro inside
  refine (stays_inside_iff [97,92,48,110,92,48,49] (by decide)).mp inside ?_
  have last : Part.Cuts [] (.octal [49]) :=
    ⟨List.forall_mem_singleton.mpr rfl,by decide,nofun⟩
  have short : Part.Cuts [110,92,48,49] (.octal []) :=
    ⟨nofun,by decide,fun _ c first => Option.some.inj first ▸ rfl⟩
  have plain : Part.Cuts [92,48,110,92,48,49] (.plain 97) := by
    unfold Part.Cuts
    decide
  exact .whole plain (by decide) (.short short (by decide) (.last last (by decide)))

/-- `\0` -/
theorem octal_past_end : ¬∀ s : List UInt8, 0 ∉ s → StaysInside s := by
  intro all
  have inside := all [92,48] (by decide) [0,0,0] rfl
  have outside : escapeSequenceCopy [0,0,0] ([92,48] ++ [0]) = none := by decide +kernel
  rw [outside] at inside
  contradiction

end SerialIp.Escape
