import AnalyticsBackend.Connectors.ZipGuard

/-!
# A streaming reader

A reader that goes from one local header to the next, and what it finds in a stream of chunks that each
start with a local header.
-/

namespace AnalyticsBackend.Connectors
open Lib

/-! ## The reader -/

/-- A part as a reader finds it; no content where the data cannot be inflated. -/
structure Found where
  position : Nat
  name : String
  content : Option Bytes
  deriving DecidableEq

def decode (inflate : Inflater) (method : Nat) (data : Bytes) : Option Bytes :=
  if method = 0 then some data
  else if method = 8 ∧ (inflate data).complete then some (inflate data).chunks.flatten
  else none

def startsRecord (s : Bytes) : Bool := readUInt32LE s 0 == SIG_LOCAL || readUInt32LE s 0 == SIG_CENTRAL

def nextRecord : Bytes → Nat
  | [] => 0
  | byte :: rest => if startsRecord (byte :: rest) then 0 else nextRecord rest + 1

def localData (s : Bytes) : Nat := 30 + readUInt16LE s 26 + readUInt16LE s 28

def localEnd (s : Bytes) : Nat := localData s + readUInt32LE s 18

def localName (s : Bytes) : String := textAt s 30 (30 + readUInt16LE s 26)

/-- What is inflated by the header's own method and size; nothing where the stream ends before. -/
def localContent (inflate : Inflater) (s : Bytes) : Option Bytes :=
  if s.length < localEnd s then none
  else decode inflate (readUInt16LE s 8) (subarray s (localData s) (localEnd s))

/-- Read the parts of a stream from `position` on, and where the reader stops: at the central directory,
or at the end. -/
def readParts (inflate : Inflater) : Nat → Nat → Bytes → List Found × Nat
  | 0, position, _ => ([], position)
  | fuel + 1, position, stream =>
      let here := stream.drop (nextRecord stream)
      let position := position + nextRecord stream
      if readUInt32LE here 0 = SIG_LOCAL then
        let later := readParts inflate fuel (position + localEnd here) (here.drop (localEnd here))
        (⟨position, localName here, localContent inflate here⟩ :: later.1, later.2)
      else ([], position)

/-! ## Records -/

theorem nextRecord_of_starts {s : Bytes} (starts : startsRecord s = true) : nextRecord s = 0 := by
  cases s with
  | nil => rfl
  | cons byte rest => rw [nextRecord, if_pos starts]

theorem nextRecord_drop (s : Bytes) : nextRecord (s.drop (nextRecord s)) = 0 := by
  induction s with
  | nil => rfl
  | cons byte rest ih =>
      rw [nextRecord]
      split
      · rename_i starts
        exact nextRecord_of_starts starts
      · rwa [List.drop_succ_cons]

theorem not_startsRecord_of_byte {s : Bytes} {i : Nat} (within : 1 ≤ i ∧ i < 4)
    (byte : byteAt s i = 0x50 ∨ byteAt s i = 0) : startsRecord s = false := by
  have a := byteAt_lt s 0
  have b := byteAt_lt s 1
  have c := byteAt_lt s 2
  have d := byteAt_lt s 3
  have cases : i = 1 ∨ i = 2 ∨ i = 3 := by omega
  simp only [startsRecord, Bool.or_eq_false_iff, beq_eq_false_iff_ne, ne_eq, readUInt32LE, readUInt16LE,
    SIG_LOCAL, SIG_CENTRAL, Nat.zero_add, Nat.reduceAdd]
  rcases cases with rfl | rfl | rfl <;> omega

theorem byteAt_of_starts {s : Bytes} (starts : startsRecord s = true) : byteAt s 0 = 0x50 := by
  have a := byteAt_lt s 0
  have b := byteAt_lt s 1
  simp only [startsRecord, Bool.or_eq_true, beq_iff_eq, readUInt32LE, readUInt16LE, SIG_LOCAL,
    SIG_CENTRAL, Nat.zero_add, Nat.reduceAdd] at starts
  omega

theorem startsRecord_append {gap rest : Bytes} (some : gap ≠ []) (starts : startsRecord rest = true) :
    startsRecord (gap ++ rest) = startsRecord gap := by
  have pos : 0 < gap.length := List.length_pos_iff.mpr some
  by_cases long : 4 ≤ gap.length
  · rw [startsRecord, startsRecord, readUInt32LE_append (by omega)]
  · -- a signature across the border would hold the first byte of the next one
    have edge := byteAt_append_right gap rest 0
    rw [Nat.add_zero, byteAt_of_starts starts] at edge
    rw [not_startsRecord_of_byte (i := gap.length) (by omega) (.inl edge)]
    refine (not_startsRecord_of_byte (i := gap.length) (by omega) (.inr ?_)).symm
    simp [byteAt]

theorem nextRecord_append {gap rest : Bytes} (starts : startsRecord rest = true) :
    nextRecord (gap ++ rest) = nextRecord gap := by
  induction gap with
  | nil => exact nextRecord_of_starts starts
  | cons byte gap ih =>
      have same := startsRecord_append (List.cons_ne_nil byte gap) starts
      rw [List.cons_append, nextRecord, nextRecord, ← List.cons_append, same, ih]

theorem nextRecord_eq_length_iff {s : Bytes} :
    nextRecord s = s.length ↔ ∀ k < s.length, startsRecord (s.drop k) = false := by
  induction s with
  | nil => exact iff_of_true rfl fun k within => absurd within (Nat.not_lt_zero k)
  | cons byte rest ih =>
      rw [nextRecord, List.length_cons]
      split
      · rename_i starts
        refine iff_of_false (by omega) fun quiet => ?_
        exact absurd starts (by rw [← List.drop_zero (l := byte :: rest), quiet 0 (by omega)]; nofun)
      · rename_i none
        rw [Nat.add_right_cancel_iff, ih]
        constructor
        · intro quiet k within
          cases k with
          | zero => exact eq_false_of_ne_true none
          | succ k => exact quiet k (by omega)
        · intro quiet k within
          exact quiet (k + 1) (by omega)

/-! ## Reading -/

variable {inflate : Inflater} {fuel position : Nat} {stream : Bytes}

theorem readParts_skip :
    readParts inflate (fuel + 1) position stream =
      readParts inflate (fuel + 1) (position + nextRecord stream) (stream.drop (nextRecord stream)) := by
  conv => rhs; rw [readParts, nextRecord_drop]
  rw [readParts, Nat.add_zero, List.drop_zero]

/-- Where a reader arrives first: at a part, or where it stops. -/
def arrival (read : List Found × Nat) : Nat := (read.1.head?.map Found.position).getD read.2

theorem arrival_readParts :
    arrival (readParts inflate (fuel + 1) position stream) = position + nextRecord stream := by
  rw [readParts]
  dsimp only
  split <;> rfl

theorem length_pos_of_local (signature : readUInt32LE stream 0 = SIG_LOCAL) : 0 < stream.length := by
  cases stream with
  | nil => exact absurd signature (by decide)
  | cons byte rest => exact Nat.succ_pos _

theorem localEnd_ge (s : Bytes) : 30 ≤ localEnd s := by
  unfold localEnd localData
  omega

/-- Each part takes bytes of the stream: with a step for each byte, the reader does not run short. -/
theorem readParts_enough {fuel' : Nat} (enough : stream.length < fuel) (enough' : stream.length < fuel') :
    readParts inflate fuel position stream = readParts inflate fuel' position stream := by
  induction fuel generalizing fuel' position stream with
  | zero => exact absurd enough (Nat.not_lt_zero _)
  | succ fuel ih =>
      obtain ⟨fuel', rfl⟩ := Nat.exists_eq_succ_of_ne_zero (Nat.ne_zero_of_lt enough')
      rw [readParts, readParts]
      dsimp only
      split
      · rename_i signature
        have some := length_pos_of_local signature
        have least := localEnd_ge (stream.drop (nextRecord stream))
        rw [List.length_drop] at some
        have less : ((stream.drop (nextRecord stream)).drop
            (localEnd (stream.drop (nextRecord stream)))).length < stream.length := by
          rw [List.length_drop, List.length_drop]
          omega
        rw [@ih _ _ fuel']
        all_goals omega
      · rfl

/-! ## Chunks -/

/-- A chunk of a stream, and the part that it is there for. -/
structure Piece where
  chunk : Bytes
  name : String
  content : Option Bytes

structure Piece.Headed (p : Piece) : Prop where
  signature : readUInt32LE p.chunk 0 = SIG_LOCAL
  whole : localData p.chunk ≤ p.chunk.length

/-- The local header tells of the part, and of nothing else. -/
structure Piece.Fits (inflate : Inflater) (p : Piece) : Prop where
  name : localName p.chunk = p.name
  content : localContent inflate p.chunk = p.content
  reaches : localEnd p.chunk + nextRecord (p.chunk.drop (localEnd p.chunk)) = p.chunk.length

/-- Each part where its chunk starts, and the end of the last. -/
def expected : Nat → List Piece → List Found × Nat
  | position, [] => ([], position)
  | position, p :: rest =>
      let later := expected (position + p.chunk.length) rest
      (⟨position, p.name, p.content⟩ :: later.1, later.2)

theorem arrival_expected (pieces : List Piece) : arrival (expected position pieces) = position := by
  cases pieces <;> rfl

section
variable {a b : Bytes}

theorem subarray_append {i j : Nat} (order : i ≤ j) (within : j ≤ a.length) :
    subarray (a ++ b) i j = subarray a i j := by
  unfold subarray
  rw [List.drop_append_of_le_length (by omega), List.take_append_of_le_length (by rw [List.length_drop]; omega)]

theorem localData_append (within : 30 ≤ a.length) : localData (a ++ b) = localData a := by
  unfold localData
  rw [readUInt16LE_append (by omega), readUInt16LE_append (by omega)]

theorem localEnd_append (within : 30 ≤ a.length) : localEnd (a ++ b) = localEnd a := by
  unfold localEnd
  rw [localData_append within, readUInt32LE_append (by omega)]

theorem localName_append (within : localData a ≤ a.length) : localName (a ++ b) = localName a := by
  unfold localData at within
  unfold localName textAt
  rw [readUInt16LE_append (by omega), subarray_append (by omega) (by omega)]

theorem localContent_append (within : localEnd a ≤ a.length) :
    localContent inflate (a ++ b) = localContent inflate a := by
  have least := localEnd_ge a
  have order : localData a ≤ localEnd a := Nat.le_add_right ..
  unfold localContent
  rw [localEnd_append (by omega), localData_append (by omega), subarray_append order within,
    readUInt16LE_append (by omega), if_neg (by rw [List.length_append]; omega), if_neg (by omega)]

end

theorem startsRecord_of_local {s : Bytes} (signature : readUInt32LE s 0 = SIG_LOCAL) : startsRecord s = true := by
  rw [startsRecord, signature]
  rfl

theorem startsRecord_of_central {s : Bytes} (signature : readUInt32LE s 0 = SIG_CENTRAL) :
    startsRecord s = true := by
  rw [startsRecord, signature]
  rfl

theorem Piece.Headed.length_ge {p : Piece} (headed : p.Headed) : 30 ≤ p.chunk.length := by
  have whole := headed.whole
  unfold localData at whole
  omega

theorem Piece.Headed.signature_append {p : Piece} (headed : p.Headed) (rest : Bytes) :
    readUInt32LE (p.chunk ++ rest) 0 = SIG_LOCAL := by
  have atLeast := headed.length_ge
  rw [readUInt32LE_append (by omega), headed.signature]

theorem startsRecord_chunks {pieces : List Piece} {central : Bytes} (headed : ∀ p ∈ pieces, p.Headed)
    (ends : readUInt32LE central 0 = SIG_CENTRAL) :
    startsRecord ((pieces.map Piece.chunk).flatten ++ central) = true := by
  cases pieces with
  | nil => exact startsRecord_of_central ends
  | cons p rest =>
      rw [List.map_cons, List.flatten_cons, List.append_assoc]
      exact startsRecord_of_local ((headed p (List.mem_cons_self ..)).signature_append _)

theorem arrives_iff {p : Piece} {rest : Bytes} (starts : startsRecord rest = true) :
    position + localEnd p.chunk + nextRecord ((p.chunk ++ rest).drop (localEnd p.chunk)) =
        position + p.chunk.length ↔
      localEnd p.chunk + nextRecord (p.chunk.drop (localEnd p.chunk)) = p.chunk.length := by
  rcases Nat.lt_or_ge p.chunk.length (localEnd p.chunk) with past | within
  · exact iff_of_false (by omega) (by omega)
  · rw [List.drop_append_of_le_length within, nextRecord_append starts]
    omega

theorem readParts_reached {p : Piece} {rest : Bytes} (starts : startsRecord rest = true)
    (reaches : localEnd p.chunk + nextRecord (p.chunk.drop (localEnd p.chunk)) = p.chunk.length) :
    readParts inflate (fuel + 1) (position + localEnd p.chunk) ((p.chunk ++ rest).drop (localEnd p.chunk)) =
      readParts inflate (fuel + 1) (position + p.chunk.length) rest := by
  have within : localEnd p.chunk ≤ p.chunk.length := by omega
  have all : nextRecord (p.chunk.drop (localEnd p.chunk)) = (p.chunk.drop (localEnd p.chunk)).length := by
    rw [List.length_drop]
    omega
  rw [readParts_skip, List.drop_append_of_le_length within, nextRecord_append starts, all, List.drop_left,
    ← all, Nat.add_assoc, reaches]

/-- **The reader.** From chunk to chunk it finds what each is there for iff each local header tells so. -/
theorem readParts_eq_expected_iff {pieces : List Piece} {central : Bytes} (headed : ∀ p ∈ pieces, p.Headed)
    (ends : readUInt32LE central 0 = SIG_CENTRAL)
    (enough : ((pieces.map Piece.chunk).flatten ++ central).length < fuel) :
    readParts inflate fuel position ((pieces.map Piece.chunk).flatten ++ central) = expected position pieces ↔
      ∀ p ∈ pieces, p.Fits inflate := by
  induction pieces generalizing fuel position with
  | nil =>
      refine iff_of_true ?_ fun p mem => nomatch mem
      obtain ⟨fuel, rfl⟩ := Nat.exists_eq_succ_of_ne_zero (Nat.ne_zero_of_lt enough)
      change readParts inflate (fuel + 1) position central = expected position []
      rw [readParts]
      dsimp only
      rw [nextRecord_of_starts (startsRecord_of_central ends), List.drop_zero, ends, if_neg (by decide)]
      rfl
  | cons p rest ih =>
      obtain ⟨first, others⟩ := List.forall_mem_cons.mp headed
      have starts := startsRecord_chunks others ends
      have atLeast := first.length_ge
      rw [List.map_cons, List.flatten_cons, List.append_assoc] at enough ⊢
      rw [List.length_append] at enough
      obtain ⟨fuel, rfl⟩ := Nat.exists_eq_succ_of_ne_zero (Nat.ne_zero_of_lt enough)
      have more : fuel ≠ 0 := by omega
      obtain ⟨fuel, rfl⟩ := Nat.exists_eq_succ_of_ne_zero more
      have follows : readParts inflate (fuel + 1) (position + p.chunk.length)
            ((rest.map Piece.chunk).flatten ++ central) = expected (position + p.chunk.length) rest ↔
          ∀ q ∈ rest, q.Fits inflate :=
        ih others (by omega)
      generalize (rest.map Piece.chunk).flatten ++ central = later at starts enough follows ⊢
      have signature := first.signature_append later
      rw [readParts]
      dsimp only
      rw [nextRecord_of_starts (startsRecord_of_local signature), List.drop_zero, if_pos signature,
        Nat.add_zero, localName_append first.whole, localEnd_append atLeast, expected, List.forall_mem_cons]
      by_cases reaches : localEnd p.chunk + nextRecord (p.chunk.drop (localEnd p.chunk)) = p.chunk.length
      · have within : localEnd p.chunk ≤ p.chunk.length := by omega
        rw [localContent_append within, readParts_reached starts reaches]
        simp only [Prod.mk.injEq, List.cons.injEq, Found.mk.injEq, true_and]
        rw [and_assoc, ← Prod.ext_iff, follows]
        constructor
        · rintro ⟨⟨name, content⟩, all⟩
          exact ⟨⟨name, content, reaches⟩, all⟩
        · rintro ⟨fits, all⟩
          exact ⟨⟨fits.name, fits.content⟩, all⟩
      · refine iff_of_false (fun is => ?_) fun fits => reaches fits.1.reaches
        have tails := Prod.mk.inj is
        have arrives := congrArg arrival (Prod.ext (List.cons.inj tails.1).2 tails.2)
        rw [arrival_readParts, arrival_expected] at arrives
        exact reaches ((arrives_iff starts).mp arrives)

end AnalyticsBackend.Connectors
