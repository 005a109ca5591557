import SerialIp.PidfileHandle

/-! What one process may do to the lock directory without disturbing another one:
the laws of the directory and the terms on which processes share it. -/
namespace SerialIp
open Library Library.Program

/-- A temporary file belongs to one pid and holds at most that; where a lock file
shares its contents with one, they are that pid. -/
structure Sane (conf : LockConfig) (d : Directory) : Prop where
  apart : ∀ first second file, d.names (uucpTmpFilename conf first) = some file →
    d.names (uucpTmpFilename conf second) = some file → first = second
  shared : ∀ path pid file, Separate conf path → d.names path = some file →
    d.names (uucpTmpFilename conf pid) = some file → d.files file = pidBytes pid
  short : ∀ pid file, d.names (uucpTmpFilename conf pid) = some file →
    (d.files file).length ≤ sizeofPid

structure Untouched (conf : LockConfig) (pid : Pid) (before after : Directory) : Prop where
  name : after.names (uucpTmpFilename conf pid) = before.names (uucpTmpFilename conf pid)
  content : ∀ file, before.names (uucpTmpFilename conf pid) = some file →
    after.files file = before.files file

def Keeps (conf : LockConfig) (pid : Pid) (before after : Directory) : Prop :=
  ∀ path, Separate conf path → before.Names path pid → after.Names path pid

/-- What a process does without removing a lock file. -/
structure Moves (conf : LockConfig) (pid : Pid) (before after : Directory) : Prop where
  sane : Sane conf after
  others : ∀ other, other ≠ pid → Untouched conf other before after
  locks : ∀ owner, Keeps conf owner before after

variable {conf : LockConfig} {d : Directory} {pid : Pid}

theorem Untouched.refl (conf : LockConfig) (pid : Pid) (d : Directory) : Untouched conf pid d d :=
  ⟨rfl,fun _ _ => rfl⟩

theorem Moves.still {after : Directory} (sane : Sane conf d) (same : after = d) :
    Moves conf pid d after := by
  subst same
  exact ⟨sane,fun _ _ => .refl _ _ _,fun _ _ _ named => named⟩

theorem tmp_ne {other : Pid} (different : other ≠ pid) :
    uucpTmpFilename conf other ≠ uucpTmpFilename conf pid :=
  (uucpTmpFilename_injective conf).ne different

theorem moves_make (sane : Sane conf d) (absent : d.names (uucpTmpFilename conf pid) = none) :
    Moves conf pid d (d.make (uucpTmpFilename conf pid)) := by
  have tmps (other : Pid) (file : Nat)
      (found : (d.make (uucpTmpFilename conf pid)).names (uucpTmpFilename conf other) = some file) :
      other = pid ∧ file = d.fresh ∨
        other ≠ pid ∧ d.names (uucpTmpFilename conf other) = some file := by
    by_cases same : other = pid
    · subst same
      rw [d.make_new] at found
      exact Or.inl ⟨rfl,(Option.some.inj found).symm⟩
    · rw [d.make_other (tmp_ne same)] at found
      exact Or.inr ⟨same,found⟩
  have fresh (path : Path) (named : d.names path = some d.fresh) : False :=
    Nat.lt_irrefl _ (d.allocated _ _ named)
  constructor
  · constructor
    · intro first second file one two
      rcases tmps first file one with ⟨mine,rfl⟩ | ⟨_,found⟩
      · rcases tmps second _ two with ⟨same,_⟩ | ⟨_,found⟩
        · rw [mine,same]
        · exact (fresh _ found).elim
      · rcases tmps second file two with ⟨_,rfl⟩ | ⟨_,again⟩
        · exact (fresh _ found).elim
        · exact sane.apart _ _ _ found again
    · intro path other file separate named tmp
      rw [d.make_other (separate pid).symm] at named
      rw [d.make_content _ named]
      rcases tmps other file tmp with ⟨_,rfl⟩ | ⟨_,found⟩
      · exact (fresh _ named).elim
      · exact sane.shared _ _ _ separate named found
    · intro other file tmp
      rcases tmps other file tmp with ⟨_,rfl⟩ | ⟨_,found⟩
      · rw [d.make_empty]
        exact Nat.zero_le _
      · rw [d.make_content _ found]
        exact sane.short _ _ found
  · exact fun other different => ⟨d.make_other (tmp_ne different),fun _ found => d.make_content _ found⟩
  · intro owner path separate names
    obtain ⟨file,named,held⟩ := names
    exact ⟨file,(d.make_other (separate pid).symm).trans named,(d.make_content _ named).trans held⟩

theorem overwrite_same (bytes : List UInt8) (count : Nat) : overwrite bytes bytes count = bytes := by
  unfold overwrite
  rcases Nat.le_total count bytes.length with short | long
  · rw [Nat.min_eq_right short,List.take_append_drop]
  · rw [Nat.min_eq_left long,List.take_of_length_le long,List.drop_length,List.append_nil]

theorem overwrite_whole {bytes old : List UInt8} {count : Nat} (short : old.length ≤ bytes.length)
    (whole : bytes.length ≤ count) : overwrite bytes old count = bytes := by
  unfold overwrite
  rw [Nat.min_eq_left whole,List.take_of_length_le whole,List.drop_of_length_le short,
    List.append_nil]

theorem overwrite_length {bytes old : List UInt8} {limit : Nat} (count : Nat)
    (first : bytes.length ≤ limit) (second : old.length ≤ limit) :
    (overwrite bytes old count).length ≤ limit := by
  unfold overwrite
  rw [List.length_append,List.length_take,List.length_drop]
  omega

theorem moves_rewrite {file : Nat} {bytes : List UInt8} (sane : Sane conf d)
    (tmp : d.names (uucpTmpFilename conf pid) = some file) (short : bytes.length ≤ sizeofPid)
    (same : d.files file = pidBytes pid → bytes = pidBytes pid) :
    Moves conf pid d (d.rewrite file bytes) := by
  have unchanged (path : Path) (other : Nat) (separate : Separate conf path)
      (named : d.names path = some other) :
      (d.rewrite file bytes).files other = d.files other := by
    by_cases here : other = file
    · subst here
      have before := sane.shared path pid other separate named tmp
      rw [d.rewrite_self,same before,before]
    · exact d.rewrite_other bytes here
  constructor
  · refine ⟨sane.apart,?_,?_⟩
    · intro path other found separate named shared
      exact (unchanged path found separate named).trans (sane.shared _ _ _ separate named shared)
    · intro other found named
      by_cases here : found = file
      · rw [here,d.rewrite_self]
        exact short
      · rw [d.rewrite_other bytes here]
        exact sane.short _ _ named
  · intro other different
    refine ⟨rfl,fun found named => d.rewrite_other bytes ?_⟩
    intro same
    subst same
    exact different (sane.apart _ _ _ named tmp)
  · intro owner path separate names
    obtain ⟨found,named,held⟩ := names
    exact ⟨found,named,(unchanged path found separate named).trans held⟩

theorem moves_link {file : Nat} {path : Path} (sane : Sane conf d) (separate : Separate conf path)
    (tmp : d.names (uucpTmpFilename conf pid) = some file) (content : d.files file = pidBytes pid)
    (absent : d.names path = none) :
    Moves conf pid d (d.link (uucpTmpFilename conf pid) path) := by
  have tmps (other : Pid) : (d.link (uucpTmpFilename conf pid) path).names (uucpTmpFilename conf other) =
      d.names (uucpTmpFilename conf other) := d.link_other _ (separate other)
  constructor
  · constructor
    · intro first second found
      rw [tmps,tmps]
      exact sane.apart first second found
    · intro lock other found apart named shared
      rw [tmps] at shared
      by_cases here : lock = path
      · subst here
        rw [d.link_new] at named
        have same := sane.apart _ _ _ named shared
        subst same
        rw [← Option.some.inj (tmp.symm.trans named)]
        exact content
      · rw [d.link_other _ here] at named
        exact sane.shared _ _ _ apart named shared
    · intro other found
      rw [tmps]
      exact sane.short other found
  · exact fun other _ => ⟨tmps other,fun _ _ => rfl⟩
  · intro owner lock apart names
    obtain ⟨found,named,held⟩ := names
    refine ⟨found,(d.link_other _ ?_).trans named,held⟩
    intro same
    subst same
    rw [absent] at named
    contradiction

theorem Sane.remove (sane : Sane conf d) (path : Path) : Sane conf (d.remove path) := by
  have old (other : Path) (file : Nat) (found : (d.remove path).names other = some file) :
      d.names other = some file := by
    by_cases here : other = path
    · subst here
      rw [d.remove_self] at found
      contradiction
    · exact (d.remove_other here).symm.trans found
  constructor
  · intro first second file one two
    exact sane.apart _ _ _ (old _ _ one) (old _ _ two)
  · intro lock other file separate named tmp
    exact sane.shared _ _ _ separate (old _ _ named) (old _ _ tmp)
  · exact fun other file tmp => sane.short _ _ (old _ _ tmp)

theorem moves_remove (sane : Sane conf d) :
    Moves conf pid d (d.remove (uucpTmpFilename conf pid)) := by
  refine ⟨sane.remove _,?_,fun owner path separate named => named.remove (separate pid).symm⟩
  exact fun other different => ⟨d.remove_other (tmp_ne different),fun _ _ => rfl⟩

/-- What a process does to its own temporary file, while the lock files keep their names. -/
structure Aside (conf : LockConfig) (pid : Pid) (before after : Directory) : Prop
    extends Moves conf pid before after where
  locked : ∀ path, Separate conf path → after.names path = before.names path

theorem Aside.still {after : Directory} (sane : Sane conf d) (same : after = d) :
    Aside conf pid d after := by
  refine ⟨.still sane same,fun _ _ => ?_⟩
  rw [same]

theorem Aside.make (sane : Sane conf d) (absent : d.names (uucpTmpFilename conf pid) = none) :
    Aside conf pid d (d.make (uucpTmpFilename conf pid)) :=
  ⟨moves_make sane absent,fun _ separate => d.make_other (separate pid).symm⟩

theorem Aside.remove (sane : Sane conf d) : Aside conf pid d (d.remove (uucpTmpFilename conf pid)) :=
  ⟨moves_remove sane,fun _ separate => d.remove_other (separate pid).symm⟩

structure World where
  directory : Directory
  alive : Pid → Bool

/-- The terms on which a process shares the directory with others. It makes the
calls that `may` lets it make, and of the lock files that name a live process it
removes only its own, where it has `given` them up. -/
def lockContract (conf : LockConfig) (pid : Pid) (may : Call → World → Prop) (given : Path → Prop) :
    Contract Call Call.Result World where
  act c w result after := may c w ∧ after.alive = w.alive ∧
    ∃ e, perform w.alive e w.directory c = (result,after.directory)
  rely w after := Sane conf after.directory ∧ Untouched conf pid w.directory after.directory ∧
    Keeps conf pid w.directory after.directory
  guarantee w after := Sane conf after.directory ∧
    (∀ other, other ≠ pid → Untouched conf other w.directory after.directory) ∧
    ∀ owner path, w.alive owner = true → ¬(owner = pid ∧ given path) → Separate conf path →
      w.directory.Names path owner → after.directory.Names path owner

/-- A lock file is removed as stale only while it names no live process. -/
def Harmless (conf : LockConfig) (pid : Pid) (c : Call) (w : World) : Prop :=
  match c with
  | .unlink path => path = uucpTmpFilename conf pid ∨
    ∀ owner, w.directory.owner? path = some owner → w.alive owner = false
  | _ => True

abbrev creating (conf : LockConfig) (pid : Pid) : Contract Call Call.Result World :=
  lockContract conf pid (Harmless conf pid) fun _ => False

abbrev unlocking (conf : LockConfig) (pid : Pid) (path : Path) : Contract Call Call.Result World :=
  lockContract conf pid (fun _ _ => True) (· = path)

def Prepared (conf : LockConfig) (pid : Pid) (w : World) : Prop :=
  Sane conf w.directory ∧ w.directory.Names (uucpTmpFilename conf pid) pid

def Owns (conf : LockConfig) (pid : Pid) (path : Path) (w : World) : Prop :=
  Sane conf w.directory ∧ w.directory.Names path pid

section
variable {may : Call → World → Prop} {given : Path → Prop} {w after : World}

theorem Moves.guarantee (moves : Moves conf pid w.directory after.directory) :
    (lockContract conf pid may given).guarantee w after :=
  ⟨moves.sane,moves.others,fun owner path _ _ => moves.locks owner path⟩

theorem sane_stable : Stable (lockContract conf pid may given) fun w => Sane conf w.directory :=
  fun _ _ _ between => between.1

theorem prepared_stable : Stable (lockContract conf pid may given) (Prepared conf pid) := by
  intro w later prepared between
  obtain ⟨_,file,named,content⟩ := prepared
  obtain ⟨sane,untouched,_⟩ := between
  exact ⟨sane,file,untouched.name.trans named,(untouched.content file named).trans content⟩

theorem owns_stable {path : Path} (separate : Separate conf path) :
    Stable (lockContract conf pid may given) (Owns conf pid path) := by
  intro w later owns between
  obtain ⟨sane,_,keeps⟩ := between
  exact ⟨sane,keeps path separate owns.2⟩

end

/-- Terms that leave a process free with its temporary file: all keep `base`, and
the file is nobody else's. -/
structure Terms (conf : LockConfig) (pid : Pid) {W : Type} (view : W → World) (base : W → Prop)
    (k : Contract Call Call.Result W) : Prop where
  sane : ∀ w, base w → Sane conf (view w).directory
  performs : ∀ c w result after, k.act c w result after →
    ∃ e, perform (view w).alive e (view w).directory c = (result,(view after).directory)
  rely : ∀ w after, k.rely w after →
    base after ∧ Untouched conf pid (view w).directory (view after).directory
  aside : ∀ c w result after, base w → k.act c w result after →
    (∀ oldPath newPath, c ≠ .link oldPath newPath) →
    Aside conf pid (view w).directory (view after).directory → k.guarantee w after ∧ base after

theorem sane_terms {may : Call → World → Prop} {given : Path → Prop} :
    Terms conf pid id (fun w => Sane conf w.directory) (lockContract conf pid may given) where
  sane _ sane := sane
  performs _ _ _ _ act := act.2.2
  rely _ _ between := ⟨between.1,between.2.1⟩
  aside _ _ _ _ _ _ _ aside := ⟨aside.guarantee,aside.sane⟩

section
variable {W : Type} {view : W → World} {base kept : W → Prop} {k : Contract Call Call.Result W}

theorem Terms.stable (terms : Terms conf pid view base k) : Stable k base :=
  fun w later _ between => (terms.rely w later between).1

theorem Terms.prepared_stable (terms : Terms conf pid view base k) :
    Stable k fun w => base w ∧ Prepared conf pid (view w) := by
  intro w later now between
  obtain ⟨_,_,file,named,content⟩ := now
  obtain ⟨firm,untouched⟩ := terms.rely w later between
  exact ⟨firm,terms.sane later firm,file,untouched.name.trans named,
    (untouched.content file named).trans content⟩

/-- A program that only reads keeps what is stable. -/
theorem Terms.reading {α : Type} (terms : Terms conf pid view base k) {program : Posix α}
    (stable : Stable k kept) (based : ∀ w, kept w → base w)
    (still : ∀ w after, kept w → base after → (view after).directory = (view w).directory → kept after)
    (only : program.Only Call.Reads) : Triple k kept program fun _ => kept := by
  refine .frame stable ?_ only
  intro c reads w result after now act
  obtain ⟨_,calls⟩ := terms.performs c w result after act
  have same := perform_reads reads calls
  have unlinked (oldPath newPath : Path) : c ≠ .link oldPath newPath := by
    intro links
    subst links
    exact reads
  obtain ⟨allowed,firm⟩ := terms.aside c w result after (based w now) act unlinked
    (.still (terms.sane w (based w now)) same)
  exact ⟨allowed,still w after now firm same⟩

end

end SerialIp
