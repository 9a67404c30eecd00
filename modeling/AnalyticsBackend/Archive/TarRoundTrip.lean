import AnalyticsBackend.Archive.TarHeader
import Mathlib.Data.List.Infix

/-!
# Extracting what was archived

The extractor may be stopped at any byte and goes on with the next chunk. What it has read, and what
is still to come, are a position in the stream of the writer; every pass of the loop moves to a later
position. It fails only where a name is a directory of another.
-/

namespace AnalyticsBackend.Archive
open Lib

/-! ## The destination -/

/-- Neither path is the other one or a directory of it. -/
def Apart (a b : Path) : Prop := ¬ a <+: b ∧ ¬ b <+: a

theorem prefix_iff_dropLast {p q : Path} (some : q ≠ []) : p <+: q ↔ p = q ∨ p <+: q.dropLast := by
  obtain ⟨init, last, rfl⟩ := (List.eq_nil_or_concat q).resolve_left some
  rw [List.concat_eq_append, List.prefix_concat_iff, List.dropLast_concat]

theorem not_prefix_dropLast {p : Path} (some : p ≠ []) : ¬ p <+: p.dropLast := by
  intro is
  have shorter := is.length_le
  have positive := List.length_pos_iff.mpr some
  rw [List.length_dropLast] at shorter
  omega

theorem pathOf_ne_nil (name : String) : pathOf name ≠ [] := splitChars_ne_nil _ _

/-- A tree that holds these files, and no directories but theirs. -/
structure Holds (tree : Tree) (files : List (Path × Bytes)) : Prop where
  same : tree.files = files
  named : ∀ f ∈ files, f.1 ≠ []
  dirs : ∀ p, p ∈ tree.dirs ↔ p ≠ [] ∧ ∃ f ∈ files, p <+: f.1.dropLast

theorem holds_empty : Holds Tree.empty [] := ⟨rfl, by simp, by simp [Tree.empty]⟩

section Open

variable {tree : Tree} {files : List (Path × Bytes)} {p : Path}

theorem Holds.isFile_iff (holds : Holds tree files) :
    tree.isFile p = true ↔ ∃ f ∈ files, f.1 = p := by
  rw [Tree.isFile, holds.same]
  simp

theorem Holds.blocked_iff (holds : Holds tree files) {dir : Path} :
    dir.inits.any tree.isFile = true ↔ ∃ f ∈ files, f.1 <+: dir := by
  rw [List.any_eq_true]
  constructor
  · rintro ⟨d, mem, isFile⟩
    obtain ⟨f, inside, rfl⟩ := holds.isFile_iff.mp isFile
    exact ⟨f, inside, (List.mem_inits _ _).mp mem⟩
  · rintro ⟨f, inside, is⟩
    exact ⟨f.1, (List.mem_inits _ _).mpr is, holds.isFile_iff.mpr ⟨f, inside, rfl⟩⟩

def withDirs (tree : Tree) (dir : Path) : Tree :=
  { tree with dirs := tree.dirs ++ dir.inits.filter fun dir => !dir.isEmpty }

theorem mem_withDirs {dir q : Path} :
    q ∈ (withDirs tree dir).dirs ↔ q ∈ tree.dirs ∨ (q ≠ [] ∧ q <+: dir) := by
  simp only [withDirs, List.mem_append, List.mem_filter, List.mem_inits, Bool.not_eq_true',
    List.isEmpty_eq_false_iff, and_comm]

theorem Holds.taken_iff (holds : Holds tree files) (some : p ≠ []) :
    ((withDirs tree p.dropLast).isFile p || (withDirs tree p.dropLast).isDir p) = true ↔
      ∃ f ∈ files, p <+: f.1 := by
  have isFile : (withDirs tree p.dropLast).isFile p = true ↔ ∃ f ∈ files, f.1 = p := holds.isFile_iff
  have isDir : (withDirs tree p.dropLast).isDir p = true ↔ ∃ f ∈ files, p <+: f.1.dropLast := by
    have full : p.isEmpty = false := by simpa using some
    rw [Tree.isDir, full, Bool.false_or, List.contains_iff_mem, mem_withDirs, holds.dirs]
    constructor
    · rintro (⟨-, found⟩ | ⟨-, is⟩)
      · exact found
      · exact absurd is (not_prefix_dropLast some)
    · exact fun found => .inl ⟨some, found⟩
  rw [Bool.or_eq_true, isFile, isDir]
  constructor
  · rintro (⟨f, inside, rfl⟩ | ⟨f, inside, is⟩)
    · exact ⟨f, inside, List.prefix_rfl⟩
    · exact ⟨f, inside, is.trans (List.dropLast_prefix _)⟩
  · rintro ⟨f, inside, is⟩
    rcases (prefix_iff_dropLast (holds.named f inside)).mp is with same | below
    · exact .inl ⟨f, inside, same.symm⟩
    · exact .inr ⟨f, inside, below⟩

theorem Holds.open_of_apart (holds : Holds tree files) (some : p ≠ [])
    (apart : ∀ f ∈ files, Apart f.1 p) :
    ∃ tree', (tree.makeDirs p.dropLast >>= fun tree => tree.create p) = .ok tree' ∧
      Holds tree' (files ++ [(p, [])]) := by
  have free : ¬ p.dropLast.inits.any tree.isFile = true := by
    rw [holds.blocked_iff]
    rintro ⟨f, inside, is⟩
    exact (apart f inside).1 (is.trans (List.dropLast_prefix _))
  have absent : ¬ ((withDirs tree p.dropLast).isFile p || (withDirs tree p.dropLast).isDir p) = true := by
    rw [holds.taken_iff some]
    rintro ⟨f, inside, is⟩
    exact (apart f inside).2 is
  have dirs : tree.makeDirs p.dropLast = .ok (withDirs tree p.dropLast) := if_neg free
  rw [dirs, ok_bind]
  refine ⟨_, if_neg absent, ?_, ?_, ?_⟩
  · rw [← holds.same]
    rfl
  · rw [List.forall_mem_append, List.forall_mem_singleton]
    exact ⟨holds.named, some⟩
  · intro q
    rw [mem_withDirs, holds.dirs, ← and_or_left]
    refine and_congr_right fun _ => ?_
    constructor
    · rintro (⟨f, inside, is⟩ | is)
      · exact ⟨f, List.mem_append_left _ inside, is⟩
      · exact ⟨_, List.mem_append_right _ (List.mem_singleton_self _), is⟩
    · rintro ⟨f, inside, is⟩
      rcases List.mem_append.mp inside with old | new
      · exact .inl ⟨f, old, is⟩
      · rw [List.mem_singleton.mp new] at is
        exact .inr is

theorem Holds.open_of_not_apart (holds : Holds tree files) (some : p ≠ [])
    (meets : ∃ f ∈ files, ¬ Apart f.1 p) :
    (tree.makeDirs p.dropLast >>= fun tree => tree.create p) = .error .fileSystem := by
  by_cases blocked : p.dropLast.inits.any tree.isFile = true
  · have dirs : tree.makeDirs p.dropLast = .error .fileSystem := if_pos blocked
    rw [dirs, error_bind]
  · have dirs : tree.makeDirs p.dropLast = .ok (withDirs tree p.dropLast) := if_neg blocked
    rw [dirs, ok_bind]
    refine if_pos ((holds.taken_iff some).mpr ?_)
    obtain ⟨f, inside, meet⟩ := meets
    refine ⟨f, inside, by_contra fun not => meet ⟨fun is => ?_, not⟩⟩
    rcases (prefix_iff_dropLast some).mp is with same | below
    · exact not (same ▸ List.prefix_rfl)
    · exact blocked (holds.blocked_iff.mpr ⟨f, inside, below⟩)

theorem Holds.write {written : Bytes} (holds : Holds tree (files ++ [(p, written)]))
    (apart : ∀ f ∈ files, Apart f.1 p) (bytes : Bytes) :
    Holds (tree.write p bytes) (files ++ [(p, written ++ bytes)]) := by
  have paths (q : Path) (P : Path → Prop) :
      (∃ f ∈ files ++ [(p, written ++ bytes)], P f.1) ↔ ∃ f ∈ files ++ [(p, written)], P f.1 := by
    simp only [List.mem_append, List.mem_singleton, or_and_right, exists_or, exists_eq_left]
  refine ⟨?_, ?_, fun q => ?_⟩
  · have others : files.map (fun file => if file.1 = p then (file.1, file.2 ++ bytes) else file) =
        files := by
      refine (List.map_congr_left fun f mem => ?_).trans (List.map_id _)
      have other : f.1 ≠ p := fun same => (apart f mem).1 (same ▸ List.prefix_rfl)
      exact if_neg other
    simp only [Tree.write, holds.same, List.map_append, others, List.map_singleton, if_true]
  · have named := holds.named
    rw [List.forall_mem_append, List.forall_mem_singleton] at named ⊢
    exact named
  · rw [paths q fun f => q <+: f.dropLast]
    exact holds.dirs q

end Open

/-! ## The stream of the writer -/

/-- What the destination holds of archived entries. -/
def saved (entries : List Entry) : List (Path × Bytes) :=
  entries.map fun entry => (pathOf entry.name, entry.content)

theorem length_padding (size : ℕ) : (padding size).length = padOf size := by
  unfold padding padOf
  split
  next whole =>
    rw [whole]
    rfl
  next part =>
    have small : size % BLOCK < BLOCK := Nat.mod_lt _ (by decide)
    rw [List.length_replicate]
    exact (Nat.mod_eq_of_lt (by omega)).symm

theorem blocks_nil {bytes : Bytes} (written : blocks [] = .ok bytes) :
    bytes = List.replicate (BLOCK * 2) 0 := (Except.ok.inj written).symm

theorem blocks_cons {entry : Entry} {rest : List Entry} {bytes : Bytes}
    (written : blocks (entry :: rest) = .ok bytes) :
    ∃ header others, assertSafeName entry.name = .ok () ∧ ReadsAs header entry.name entry.size ∧
      entry.content.length = entry.size ∧ blocks rest = .ok others ∧
      bytes = header ++ (entry.content ++ (padding entry.size ++ others)) := by
  simp only [blocks, entryBlocks, bind_eq_ok] at written
  obtain ⟨first, one, others, more, same⟩ := written
  split at one
  next => cases one
  next =>
    simp only [bind_eq_ok] at one
    obtain ⟨header, built, one⟩ := one
    split at one
    next => cases one
    next length =>
      obtain ⟨safe, reads⟩ := buildHeader_eq_ok built
      refine ⟨header, others, safe, reads, not_not.mp length, more, ?_⟩
      rw [← Except.ok.inj same, ← Except.ok.inj one]
      simp only [List.append_assoc]

theorem le_length_blocks {entries : List Entry} {bytes : Bytes}
    (written : blocks entries = .ok bytes) : BLOCK ≤ bytes.length := by
  cases entries with
  | nil =>
      rw [blocks_nil written, List.length_replicate]
      decide
  | cons entry rest =>
      obtain ⟨header, others, -, reads, -, -, rfl⟩ := blocks_cons written
      rw [List.length_append, reads.length]
      exact Nat.le_add_right ..

/-! ## Positions -/

structure Extractable (root : Path) (entries : List Entry) : Prop where
  below : entries ≠ [] → root ≠ []
  apart : (entries.map fun entry => pathOf entry.name).Pairwise Apart

def memberOf (entry : Entry) (remaining : ℕ) : Member :=
  { handle := some (pathOf entry.name), remaining, pad := padOf entry.size }

/-- Where the extractor is in the archive of `entries`, when `rest` is still to come. -/
inductive At (root : Path) (entries : List Entry) (rest : Bytes) (s : Extraction) : Prop
  | header (done todo : List Entry) (bytes : Bytes) (all : entries = done ++ todo)
      (current : s.current = none) (going : s.finished = false)
      (names : s.names = done.map (·.name)) (holds : Holds s.tree (saved done))
      (fine : Extractable root done) (written : blocks todo = .ok bytes)
      (stream : s.buffer ++ rest = bytes)
  | data (done : List Entry) (entry : Entry) (todo : List Entry) (before left bytes : Bytes)
      (all : entries = done ++ entry :: todo)
      (current : s.current = some (memberOf entry left.length))
      (going : s.finished = false) (names : s.names = (done ++ [entry]).map (·.name))
      (content : entry.content = before ++ left)
      (holds : Holds s.tree (saved done ++ [(pathOf entry.name, before)]))
      (fine : Extractable root (done ++ [entry])) (written : blocks todo = .ok bytes)
      (stream : s.buffer ++ rest = left ++ (padding entry.size ++ bytes))
  | finished (current : s.current = none) (ended : s.finished = true)
      (names : s.names = entries.map (·.name)) (holds : Holds s.tree (saved entries))
      (fine : Extractable root entries)

theorem Extractable.apart_last {root : Path} {done : List Entry} {entry : Entry}
    (fine : Extractable root (done ++ [entry])) : ∀ f ∈ saved done, Apart f.1 (pathOf entry.name) := by
  have apart := fine.apart
  rw [List.map_append, List.map_singleton, List.pairwise_append] at apart
  intro f mem
  obtain ⟨e, inside, rfl⟩ := List.mem_map.mp mem
  exact apart.2.2 _ (List.mem_map_of_mem inside) _ (List.mem_singleton_self _)

variable {limits : ExtractLimits} {root : Path} {entries : List Entry} {rest : Bytes}
  {s : Extraction}

theorem skipPadding_at {done todo : List Entry} {entry : Entry} {bytes : Bytes} {m : Member}
    (all : entries = done ++ entry :: todo)
    (member : m = memberOf entry 0)
    (going : s.finished = false) (names : s.names = (done ++ [entry]).map (·.name))
    (holds : Holds s.tree (saved done ++ [(pathOf entry.name, entry.content)]))
    (fine : Extractable root (done ++ [entry])) (written : blocks todo = .ok bytes)
    (stream : s.buffer ++ rest = padding entry.size ++ bytes) :
    At root entries rest (skipPadding m s).1 ∧
      ((skipPadding m s).2 = true → (skipPadding m s).1.current = none ∧
        (skipPadding m s).1.finished = false ∧
        (skipPadding m s).1.buffer.length ≤ s.buffer.length) ∧
      ((skipPadding m s).2 = false → rest ≠ []) := by
  subst member
  have pad : (memberOf entry 0).pad = padOf entry.size := rfl
  unfold skipPadding
  rw [pad]
  split
  next short =>
    refine ⟨.data done entry todo entry.content [] bytes all rfl going names
      (List.append_nil _).symm holds fine written stream, nofun, ?_⟩
    rintro - rfl
    rw [List.append_nil] at stream
    rw [stream, List.length_append, length_padding] at short
    omega
  next enough =>
    refine ⟨.header (done ++ [entry]) todo bytes ?_ rfl going names ?_ fine written ?_, ?_, nofun⟩
    · rw [all, List.append_assoc]
      rfl
    · simpa [saved] using holds
    · have cut := congrArg (List.drop (padOf entry.size)) stream
      rwa [List.drop_append_of_le_length (Nat.le_of_not_lt enough),
        List.drop_left' (length_padding _)] at cut
    · intro _
      exact ⟨rfl, going, by simp⟩

/-- After `k` of `n` bytes of an entry were written. -/
def wrote (entry : Entry) (k n : ℕ) (s : Extraction) : Extraction :=
  { s with
    tree := s.tree.write (pathOf entry.name) (s.buffer.take k)
    buffer := s.buffer.drop k
    current := some (memberOf entry (n - k)) }

theorem readData_memberOf {entry : Entry} {n : ℕ} (more : 0 < n) (some : s.buffer.isEmpty = false) :
    readData (memberOf entry n) s =
      if n - min n s.buffer.length > 0 then (wrote entry (min n s.buffer.length) n s, false)
      else skipPadding (memberOf entry (n - min n s.buffer.length))
        (wrote entry (min n s.buffer.length) n s) := by
  have positive : (memberOf entry n).remaining > 0 := more
  rw [readData, if_pos positive, some]
  rfl

theorem readData_at {done todo : List Entry} {entry : Entry} {before left bytes : Bytes}
    (all : entries = done ++ entry :: todo)
    (current : s.current = some (memberOf entry left.length)) (going : s.finished = false)
    (names : s.names = (done ++ [entry]).map (·.name)) (content : entry.content = before ++ left)
    (holds : Holds s.tree (saved done ++ [(pathOf entry.name, before)]))
    (fine : Extractable root (done ++ [entry])) (written : blocks todo = .ok bytes)
    (stream : s.buffer ++ rest = left ++ (padding entry.size ++ bytes)) :
    At root entries rest (readData (memberOf entry left.length) s).1 ∧
      ((readData (memberOf entry left.length) s).2 = true →
        (readData (memberOf entry left.length) s).1.current = none ∧
        (readData (memberOf entry left.length) s).1.finished = false ∧
        (readData (memberOf entry left.length) s).1.buffer.length ≤ s.buffer.length) ∧
      ((readData (memberOf entry left.length) s).2 = false → rest ≠ []) := by
  rcases Nat.eq_zero_or_pos left.length with zero | more
  · have none : left = [] := List.length_eq_zero_iff.mp zero
    subst none
    rw [List.append_nil] at content
    rw [← content] at holds
    exact skipPadding_at all rfl going names holds fine written stream
  · cases some : s.buffer.isEmpty with
    | true =>
        have still : readData (memberOf entry left.length) s = (s, false) := by
          have positive : (memberOf entry left.length).remaining > 0 := more
          rw [readData, if_pos positive, some]
          rfl
        rw [still]
        refine ⟨.data done entry todo before left bytes all current going names content holds fine
          written stream, nofun, ?_⟩
        rintro - rfl
        rw [List.append_nil, List.isEmpty_iff.mp some] at stream
        rw [(List.append_eq_nil_iff.mp stream.symm).1] at more
        exact absurd more (Nat.lt_irrefl 0)
    | false =>
        rw [readData_memberOf more some]
        generalize taken : min left.length s.buffer.length = k
        have inBuffer : k ≤ s.buffer.length := taken ▸ Nat.min_le_right ..
        have inLeft : k ≤ left.length := taken ▸ Nat.min_le_left ..
        have part : s.buffer.take k = left.take k := by
          have cut := congrArg (List.take k) stream
          rwa [List.take_append_of_le_length inBuffer, List.take_append_of_le_length inLeft] at cut
        have stream' : s.buffer.drop k ++ rest = left.drop k ++ (padding entry.size ++ bytes) := by
          have cut := congrArg (List.drop k) stream
          rwa [List.drop_append_of_le_length inBuffer, List.drop_append_of_le_length inLeft] at cut
        have content' : entry.content = (before ++ left.take k) ++ left.drop k := by
          rw [List.append_assoc, List.take_append_drop, content]
        have holds' : Holds (wrote entry k left.length s).tree
            (saved done ++ [(pathOf entry.name, before ++ left.take k)]) :=
          part ▸ holds.write fine.apart_last (s.buffer.take k)
        split
        next unfinished =>
          refine ⟨.data done entry todo (before ++ left.take k) (left.drop k) bytes all ?_ going names
            content' holds' fine written stream', nofun, ?_⟩
          · rw [List.length_drop]
            rfl
          · rintro - rfl
            have whole := congrArg List.length stream
            rw [List.append_nil, List.length_append] at whole
            omega
        next ended =>
          have none : left.drop k = [] := by
            rw [List.drop_eq_nil_iff]
            omega
          have zero : left.length - k = 0 := by omega
          rw [none, List.nil_append] at stream'
          rw [none, List.append_nil] at content'
          rw [← content'] at holds'
          obtain ⟨at', again, stop⟩ :=
            skipPadding_at (s := wrote entry k left.length s) all (congrArg (memberOf entry) zero) going
              names holds' fine written stream'
          refine ⟨at', fun more => ⟨(again more).1, (again more).2.1, (again more).2.2.trans ?_⟩, stop⟩
          rw [wrote, List.length_drop]
          exact Nat.sub_le ..

/-! ## Reading the next header -/

/-- What follows a header of an archived entry. -/
def openMember (limits : ExtractLimits) (root : Path) (name : String) (size : ℕ) (s : Extraction) :
    Except TarFailure Extraction :=
  if s.names.length ≥ limits.maxEntries then tarError .tooLarge "Archive has too many entries"
  else if root.isEmpty then
    tarError .entryUnsafe s!"Archive entry \"{name}\" escapes the destination"
  else do
    let tree ← s.tree.makeDirs (pathOf name).dropLast
    let tree ← tree.create (pathOf name)
    return { s with
      tree
      names := s.names ++ [name]
      current := some { handle := some (pathOf name), remaining := size, pad := padOf size } }

theorem readHeader_eq {header : Bytes} {name : String} {size : ℕ}
    (safe : assertSafeName name = .ok ()) (reads : ReadsAs header name size) :
    readHeader limits root header s = openMember limits root name size s := by
  have last := (assertSafeName_eq_ok safe).last
  rw [readHeader, reads.checksum, ok_bind, reads.stem, reads.named, reads.sized, ok_bind, reads.kind]
  simp only [List.isEmpty_nil, if_true, List.nil_append, last, if_false, String.ofList_toList, safe,
    ok_bind]
  rfl

theorem openMember_of_extractable {done : List Entry} {entry : Entry}
    (names : s.names = done.map (·.name)) (holds : Holds s.tree (saved done))
    (fine : Extractable root (done ++ [entry])) (room : done.length < limits.maxEntries) :
    ∃ s', openMember limits root entry.name entry.size s = .ok s' ∧ s'.buffer = s.buffer ∧
      s'.inflated = s.inflated ∧ s'.finished = s.finished ∧
      s'.current = some (memberOf entry entry.size) ∧
      s'.names = (done ++ [entry]).map (·.name) ∧
      Holds s'.tree (saved done ++ [(pathOf entry.name, [])]) := by
  have below : root.isEmpty = false := by
    simpa using fine.below (List.append_ne_nil_of_right_ne_nil _ (List.cons_ne_nil _ _))
  have space : ¬ s.names.length ≥ limits.maxEntries := by
    rw [names, List.length_map]
    omega
  obtain ⟨tree, opened, holds'⟩ := holds.open_of_apart (pathOf_ne_nil entry.name) fine.apart_last
  obtain ⟨middle, dirs, created⟩ := bind_eq_ok.mp opened
  rw [openMember, if_neg space, below, dirs, ok_bind, created]
  exact ⟨_, rfl, rfl, rfl, rfl, rfl, by rw [names, List.map_append]; rfl, holds'⟩

theorem openMember_of_not_extractable {done : List Entry} {entry : Entry}
    (holds : Holds s.tree (saved done)) (fine : Extractable root done)
    (not : ¬ Extractable root (done ++ [entry])) :
    ∃ failure, openMember limits root entry.name entry.size s = .error failure := by
  unfold openMember
  split
  next => exact ⟨_, rfl⟩
  next =>
    split
    next => exact ⟨_, rfl⟩
    next below =>
      have meets : ∃ f ∈ saved done, ¬ Apart f.1 (pathOf entry.name) := by
        by_contra none
        push Not at none
        refine not ⟨fun _ => by simpa using below, ?_⟩
        rw [List.map_append, List.map_singleton, List.pairwise_append]
        refine ⟨fine.apart, List.pairwise_singleton .., fun p mem q single => ?_⟩
        obtain ⟨e, inside, rfl⟩ := List.mem_map.mp mem
        rw [List.mem_singleton.mp single]
        exact none _ (List.mem_map_of_mem inside)
      have refused := holds.open_of_not_apart (pathOf_ne_nil entry.name) meets
      refine ⟨.fileSystem, ?_⟩
      cases dirs : s.tree.makeDirs (pathOf entry.name).dropLast with
      | error failure =>
          rw [dirs, error_bind] at refused
          rw [error_bind, Except.error.inj refused]
      | ok tree =>
          rw [dirs, ok_bind] at refused
          rw [ok_bind, refused, error_bind]

/-! ## The loop -/

theorem Extractable.of_append {done todo : List Entry} (fine : Extractable root (done ++ todo)) :
    Extractable root done where
  below some := fine.below (List.append_ne_nil_of_left_ne_nil some _)
  apart := by
    have apart := fine.apart
    rw [List.map_append, List.pairwise_append] at apart
    exact apart.1

theorem readData_inflated (m : Member) (s : Extraction) :
    (readData m s).1.inflated = s.inflated := by
  have skip (m : Member) (s : Extraction) : (skipPadding m s).1.inflated = s.inflated := by
    unfold skipPadding
    split <;> rfl
  unfold readData
  split
  · split
    · rfl
    · dsimp only
      split
      · rfl
      · rw [skip]
  · exact skip m s

/-- How far a state is from the end of the buffer. -/
def toGo (s : Extraction) : ℕ := s.buffer.length + if s.current.isSome then 1 else 0

/-- A pass moves on in the archive, or fails at a path that meets another. It takes a part of the
buffer, or ends, and it does not end before the archive does if nothing more is to come. -/
theorem pass_at (at' : At root entries rest s) (going : s.finished = false)
    (room : entries.length ≤ limits.maxEntries) :
    (¬ Extractable root entries ∧ ∃ failure, pass limits root s = .error failure) ∨
      ∃ s' more, pass limits root s = .ok (s', more) ∧ At root entries rest s' ∧
        s'.inflated = s.inflated ∧ (more = true → s'.finished = false ∧ toGo s' < toGo s) ∧
        (more = false → s'.finished = true ∨ rest ≠ []) := by
  cases at' with
  | finished current ended => exact absurd (ended.symm.trans going) (by decide)
  | data done entry todo before left bytes all current going names content holds fine written stream =>
      right
      obtain ⟨moved, again, stop⟩ :=
        readData_at all current going names content holds fine written stream
      refine ⟨_, _, by rw [pass, current], moved, readData_inflated _ _, fun more => ?_,
        fun none => .inr (stop none)⟩
      obtain ⟨current', going', shorter⟩ := again more
      refine ⟨going', ?_⟩
      rw [toGo, toGo, current, current']
      exact Nat.lt_succ_of_le shorter
  | header done todo bytes all current going names holds fine written stream =>
      by_cases short : s.buffer.length < BLOCK
      · right
        refine ⟨s, false, by rw [pass, current]; exact if_pos short,
          .header done todo bytes all current going names holds fine written stream, rfl,
          (absurd · Bool.false_ne_true), ?_⟩
        rintro -
        refine .inr ?_
        rintro rfl
        have long := le_length_blocks written
        rw [← stream, List.append_nil] at long
        omega
      · have enough : BLOCK ≤ s.buffer.length := Nat.le_of_not_lt short
        have unfolded := pass_header limits root current short
        cases todo with
        | nil =>
            right
            have zeros : s.buffer.take BLOCK = List.replicate BLOCK 0 := by
              have cut := congrArg (List.take BLOCK) stream
              rwa [List.take_append_of_le_length enough, blocks_nil written, List.take_replicate] at cut
            have blank : (s.buffer.take BLOCK).all (· == 0) = true := by
              rw [zeros, List.all_eq_true]
              intro b mem
              rw [List.eq_of_mem_replicate mem]
              rfl
            rw [List.append_nil] at all
            subst all
            exact ⟨_, false, unfolded.trans (if_pos blank),
              .finished current rfl names holds fine, rfl, (absurd · Bool.false_ne_true),
              fun _ => .inl rfl⟩
        | cons entry todo =>
            obtain ⟨header, others, safe, reads, length, written', rfl⟩ := blocks_cons written
            have first : s.buffer.take BLOCK = header := by
              have cut := congrArg (List.take BLOCK) stream
              rwa [List.take_append_of_le_length enough, List.take_left' reads.length] at cut
            have stream' : s.buffer.drop BLOCK ++ rest =
                entry.content ++ (padding entry.size ++ others) := by
              have cut := congrArg (List.drop BLOCK) stream
              rwa [List.drop_append_of_le_length enough, List.drop_left' reads.length] at cut
            have blank : ¬ (s.buffer.take BLOCK).all (· == 0) = true := by
              rw [first, reads.some]
              exact Bool.false_ne_true
            rw [if_neg blank, first, readHeader_eq safe reads] at unfolded
            have split : entries = (done ++ [entry]) ++ todo := by
              rw [all, List.append_assoc]
              rfl
            by_cases next : Extractable root (done ++ [entry])
            · right
              have free : done.length < limits.maxEntries := by
                rw [all, List.length_append, List.length_cons] at room
                omega
              obtain ⟨s', opened, buffer, inflated, going', current', names', holds'⟩ :=
                openMember_of_extractable (s := { s with buffer := s.buffer.drop BLOCK }) names holds
                  next free
              rw [← length] at current'
              obtain ⟨moved, again, stop⟩ := readData_at all current' (going'.trans going) names'
                (List.nil_append _).symm holds' next written' (by rw [buffer]; exact stream')
              refine ⟨_, _, ?_, moved, (readData_inflated _ _).trans inflated, fun more => ?_,
                fun none => .inr (stop none)⟩
              · rw [unfolded, opened, ok_bind, current']
              · obtain ⟨last, going'', shorter⟩ := again more
                refine ⟨going'', ?_⟩
                rw [buffer, List.length_drop] at shorter
                have positive : 0 < BLOCK := by decide
                rw [toGo, toGo, current, last]
                simp only [Option.isSome_none, Bool.false_eq_true, if_false]
                omega
            · left
              refine ⟨fun whole => next (split ▸ whole).of_append, ?_⟩
              obtain ⟨failure, refused⟩ := openMember_of_not_extractable
                (s := { s with buffer := s.buffer.drop BLOCK }) holds fine next
              exact ⟨failure, by rw [unfolded, refused, error_bind]⟩

/-- The loop stops at a later position, and only at the end if nothing more is to come. -/
theorem drain_at (at' : At root entries rest s) (going : s.finished = false)
    (room : entries.length ≤ limits.maxEntries) {fuel : ℕ} (enough : toGo s < fuel) :
    (¬ Extractable root entries ∧ ∃ failure, drain limits root fuel s = .error failure) ∨
      ∃ s', drain limits root fuel s = .ok s' ∧ At root entries rest s' ∧
        s'.inflated = s.inflated ∧ (s'.finished = true ∨ rest ≠ []) := by
  induction fuel generalizing s with
  | zero => exact absurd enough (Nat.not_lt_zero _)
  | succ fuel ih =>
      rcases pass_at at' going room with
        ⟨not, failure, failed⟩ | ⟨s', more, passed, moved, inflated, again, stop⟩
      · exact .inl ⟨not, failure, by rw [drain, failed, error_bind]⟩
      · cases more with
        | false =>
            right
            refine ⟨s', ?_, moved, inflated, stop rfl⟩
            rw [drain, passed, ok_bind]
            rfl
        | true =>
            obtain ⟨going', less⟩ := again rfl
            have unfolded : drain limits root (fuel + 1) s = drain limits root fuel s' := by
              rw [drain, passed, ok_bind]
              rfl
            rw [unfolded, ← inflated]
            exact ih moved going' (by omega)

/-! ## Chunks -/

theorem At.push {chunk : Bytes} (at' : At root entries (chunk ++ rest) s) (going : s.finished = false)
    (inflated : ℕ) : At root entries rest { s with inflated, buffer := s.buffer ++ chunk } := by
  cases at' with
  | header done todo bytes all current going names holds fine written stream =>
      exact .header done todo bytes all current going names holds fine written
        (by rw [List.append_assoc, stream])
  | data done entry todo before left bytes all current going names content holds fine written stream =>
      exact .data done entry todo before left bytes all current going names content holds fine written
        (by rw [List.append_assoc, stream])
  | finished current ended => exact absurd (ended.symm.trans going) (by decide)

theorem onChunk_at {chunk : Bytes} (at' : At root entries (chunk ++ rest) s)
    (room : entries.length ≤ limits.maxEntries)
    (small : s.inflated + chunk.length ≤ limits.maxTotalBytes) :
    (¬ Extractable root entries ∧ ∃ failure, onChunk limits root s chunk = .error failure) ∨
      ∃ s', onChunk limits root s chunk = .ok s' ∧ At root entries rest s' ∧
        s'.inflated = s.inflated + chunk.length ∧ (s'.finished = true ∨ rest ≠ []) := by
  have fits : ¬ s.inflated + chunk.length > limits.maxTotalBytes := Nat.not_lt.mpr small
  cases ended : s.finished with
  | true =>
      right
      refine ⟨{ s with inflated := s.inflated + chunk.length }, ?_, ?_, rfl, .inl ended⟩
      · simp only [onChunk, if_neg fits, ended, if_true]
      · cases at' with
        | header done todo bytes all current going => exact absurd (ended.symm.trans going) (by decide)
        | data done entry todo before left bytes all current going =>
            exact absurd (ended.symm.trans going) (by decide)
        | finished current ended names holds fine => exact .finished current ended names holds fine
  | false =>
      have unfolded : onChunk limits root s chunk = drain limits root
          (s.buffer.length + chunk.length + 2)
          { s with inflated := s.inflated + chunk.length, buffer := s.buffer ++ chunk } := by
        simp only [onChunk, if_neg fits, ended, Bool.false_eq_true, if_false]
      rw [unfolded]
      refine drain_at (at'.push ended _) ended room ?_
      rw [toGo, List.length_append]
      split <;> omega

/-- However the stream is cut, the extractor comes to its end or to a path that meets another. -/
theorem chunks_at {chunks : List Bytes} (at' : At root entries chunks.flatten s)
    (room : entries.length ≤ limits.maxEntries)
    (small : s.inflated + chunks.flatten.length ≤ limits.maxTotalBytes)
    (stop : s.finished = true ∨ chunks.flatten ≠ []) :
    (¬ Extractable root entries ∧
        ∃ failure, chunks.foldlM (onChunk limits root) s = .error failure) ∨
      ∃ s', chunks.foldlM (onChunk limits root) s = .ok s' ∧ At root entries [] s' ∧
        s'.finished = true := by
  induction chunks generalizing s with
  | nil => exact .inr ⟨s, rfl, at', stop.resolve_right fun some => some rfl⟩
  | cons chunk rest ih =>
      rw [List.flatten_cons] at at' small
      rw [List.length_append] at small
      rcases onChunk_at at' room (by omega) with
        ⟨not, failure, failed⟩ | ⟨s', read, moved, inflated, stop'⟩
      · exact .inl ⟨not, failure, by rw [List.foldlM_cons, failed, error_bind]⟩
      · rw [List.foldlM_cons, read, ok_bind]
        exact ih moved (by omega) stop'

theorem ne_nil_of_writeTarGz {tar : Bytes} (written : writeTarGz entries = .ok tar) : entries ≠ [] := by
  rintro rfl
  cases written

theorem extractTarGz_cases {tar : Bytes} {chunks : List Bytes}
    (written : writeTarGz entries = .ok tar) (few : entries.length ≤ limits.maxEntries)
    (small : tar.length ≤ limits.maxTotalBytes) (cut : chunks.flatten = tar) :
    (¬ Extractable root entries ∧ ∃ failure, extractTarGz limits root chunks = .error failure) ∨
      (Extractable root entries ∧ ∃ tree,
        extractTarGz limits root chunks = .ok (entries.map (·.name), tree) ∧
          tree.files = saved entries) := by
  have stream : blocks entries = .ok tar := by
    rw [writeTarGz] at written
    split at written
    next => cases written
    next =>
      obtain ⟨_, -, stream⟩ := bind_eq_ok.mp written
      exact stream
  have begins : At root entries chunks.flatten Extraction.start :=
    .header [] entries tar rfl rfl rfl rfl holds_empty ⟨fun none => absurd rfl none, List.Pairwise.nil⟩
      stream cut
  have long : chunks.flatten ≠ [] := by
    rw [cut]
    rintro rfl
    exact absurd (le_length_blocks stream) (by decide)
  have bound : Extraction.start.inflated + chunks.flatten.length ≤ limits.maxTotalBytes := by
    rw [cut]
    exact (Nat.zero_add _).le.trans small
  rcases chunks_at begins few bound (.inr long) with ⟨not, failure, failed⟩ | ⟨s, ran, ended, finished⟩
  · exact .inl ⟨not, failure, by rw [extractTarGz, failed, error_bind]⟩
  · cases ended with
    | header done todo bytes all current going => exact absurd (finished.symm.trans going) (by decide)
    | data done entry todo before left bytes all current going =>
        exact absurd (finished.symm.trans going) (by decide)
    | finished current ended names holds fine =>
        refine .inr ⟨fine, s.tree, ?_, holds.same⟩
        rw [extractTarGz, ran, ok_bind, finished, current, names]
        rfl

/-- An archive is extracted, in whatever chunks it comes, just when no name is a directory of another
one, below any directory but the root of the file system: every file has the bytes of its source. -/
theorem extract_archive_iff {tar : Bytes} {chunks : List Bytes}
    (written : writeTarGz entries = .ok tar) (few : entries.length ≤ limits.maxEntries)
    (small : tar.length ≤ limits.maxTotalBytes) (cut : chunks.flatten = tar) :
    (∃ tree, extractTarGz limits root chunks = .ok (entries.map (·.name), tree) ∧
      tree.files = saved entries) ↔
    root ≠ [] ∧ (entries.map fun entry => pathOf entry.name).Pairwise Apart := by
  have some := ne_nil_of_writeTarGz written
  rcases extractTarGz_cases written few small cut with ⟨not, failure, failed⟩ | ⟨fine, extracted⟩
  · refine iff_of_false ?_ fun fine => not ⟨fun _ => fine.1, fine.2⟩
    rintro ⟨tree, extracted, -⟩
    rw [failed] at extracted
    cases extracted
  · exact iff_of_true extracted ⟨fine.below some, fine.apart⟩

namespace Sample

/-- A file of a few bytes. -/
def entry (name : String) (content : Bytes) : Entry :=
  { name, isFile := true, size := content.length, mtime := 1700000000000, content }

def destination : Path := ["restore".toList]

theorem exists_of_length {result : Except TarFailure Bytes} {n : ℕ}
    (length : result.toOption.map List.length = some n) :
    ∃ tar, result = .ok tar ∧ tar.length = n := by
  cases result with
  | error failure => cases length
  | ok tar => exact ⟨tar, rfl, Option.some.inj length⟩

end Sample

/-- A stream that is cut within the first content. -/
theorem extract_archive_cut :
    ∃ tar, writeTarGz [Sample.entry "a" [1, 2, 3], Sample.entry "b/c" []] = .ok tar ∧
      ∃ tree, extractTarGz EXTRACT_LIMITS Sample.destination [tar.take 514, tar.drop 514] =
        .ok (["a", "b/c"], tree) ∧
          tree.files = [(["a".toList], [1, 2, 3]), (["b".toList, "c".toList], [])] := by
  obtain ⟨tar, written, length⟩ : ∃ tar,
      writeTarGz [Sample.entry "a" [1, 2, 3], Sample.entry "b/c" []] = .ok tar ∧ tar.length = 2560 :=
    Sample.exists_of_length (by decide +kernel)
  have whole : [tar.take 514, tar.drop 514].flatten = tar := by
    rw [List.flatten_cons, List.flatten_singleton, List.take_append_drop]
  have small : tar.length ≤ EXTRACT_LIMITS.maxTotalBytes := by
    rw [length]
    decide
  refine ⟨tar, written, (extract_archive_iff written (by decide) small whole).mpr ?_⟩
  refine ⟨List.cons_ne_nil _ _, List.pairwise_pair.mpr ?_⟩
  unfold Apart
  decide +kernel

/-- A file and a directory of one name are archived and cannot be extracted. -/
theorem file_and_directory_collide :
    ¬ ∀ (limits : ExtractLimits) (root : Path) (entries : List Entry) (tar : Bytes)
      (chunks : List Bytes), root ≠ [] → writeTarGz entries = .ok tar →
      entries.length ≤ limits.maxEntries → tar.length ≤ limits.maxTotalBytes → chunks.flatten = tar →
      ∃ tree, extractTarGz limits root chunks = .ok (entries.map (·.name), tree) ∧
        tree.files = saved entries := by
  intro always
  obtain ⟨tar, written, length⟩ : ∃ tar,
      writeTarGz [Sample.entry "a" [], Sample.entry "a/b" []] = .ok tar ∧ tar.length = 2048 :=
    Sample.exists_of_length (by decide +kernel)
  have whole : [tar].flatten = tar := by rw [List.flatten_singleton]
  have small : tar.length ≤ EXTRACT_LIMITS.maxTotalBytes := by
    rw [length]
    decide
  obtain ⟨tree, extracted, -⟩ := always EXTRACT_LIMITS Sample.destination _ tar [tar]
    (List.cons_ne_nil _ _) written (by decide) small whole
  rcases @extractTarGz_cases EXTRACT_LIMITS Sample.destination _ tar [tar] written (by decide) small
    whole with ⟨-, failure, failed⟩ | ⟨fine, -⟩
  · rw [failed] at extracted
    cases extracted
  · have apart := List.pairwise_pair.mp fine.apart
    revert apart
    unfold Apart
    decide +kernel

end AnalyticsBackend.Archive
