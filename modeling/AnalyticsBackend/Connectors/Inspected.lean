import AnalyticsBackend.Connectors.ZipReader
import AnalyticsBackend.Lib.Result

/-!
# What the workbook guard has seen

The entries that the guard accepts, the parts that it selects of them, and what it has counted.
-/

namespace AnalyticsBackend.Connectors
open Lib

variable {inflate : Inflater} {buffer : Bytes} {cdOffset budget : Nat}

/-! ## What is accepted -/

structure Seen (buffer : Bytes) (cdOffset : Nat) (e : ZipEntry) : Prop where
  method : e.method = 0 ∨ e.method = 8
  before : e.localOffset + 30 ≤ cdOffset
  signature : readUInt32LE buffer e.localOffset = SIG_LOCAL

structure Placed (buffer : Bytes) (cdOffset : Nat) (e : PlacedEntry) : Prop extends
    Seen buffer cdOffset e.toZipEntry where
  dataStart : e.dataStart =
    e.localOffset + 30 + readUInt16LE buffer (e.localOffset + 26) + readUInt16LE buffer (e.localOffset + 28)
  within : e.dataStart + e.compressedSize ≤ e.stop
  stop_le : e.stop ≤ cdOffset
  record : startsRecord (buffer.drop e.stop) = true

/-- What the guard has seen of the whole archive. -/
structure Inspected (buffer : Bytes) (inspection : Inspection) : Prop where
  placed : ∀ e ∈ inspection.entries, Placed buffer inspection.centralDirectoryOffset e
  nodup : inspection.entries.Nodup
  central : readUInt32LE buffer inspection.centralDirectoryOffset = SIG_CENTRAL
  within : inspection.centralDirectoryOffset ≤ buffer.length

theorem readEntries_eq_ok {count p declared : Nat} {entries : List ZipEntry}
    (read : readEntries buffer cdOffset budget (count + 1) p declared = .ok entries) :
    (p + 46 ≤ buffer.length ∧ readUInt32LE buffer p = SIG_CENTRAL) ∧
      ∃ e p' declared' rest, Seen buffer cdOffset e ∧ entries = e :: rest ∧
        readEntries buffer cdOffset budget count p' declared' = .ok rest := by
  rw [readEntries] at read
  obtain ⟨header, read⟩ := guard_eq_ok.mp read
  dsimp only at read
  obtain ⟨-, read⟩ := guard_eq_ok.mp read
  obtain ⟨method, read⟩ := guard_eq_ok.mp read
  obtain ⟨-, read⟩ := guard_eq_ok.mp read
  obtain ⟨place, read⟩ := guard_eq_ok.mp read
  obtain ⟨-, read⟩ := guard_eq_ok.mp read
  obtain ⟨rest, later, is⟩ := bind_eq_ok.mp read
  refine ⟨by omega, _, _, _, rest, ⟨?_, ?_, ?_⟩, (Except.ok.inj is).symm, later⟩
  · dsimp only
    omega
  · dsimp only
    omega
  · dsimp only
    omega

theorem readEntries_seen {count p declared : Nat} {entries : List ZipEntry}
    (read : readEntries buffer cdOffset budget count p declared = .ok entries) :
    ∀ e ∈ entries, Seen buffer cdOffset e := by
  induction count generalizing p declared entries with
  | zero =>
      rw [← Except.ok.inj read]
      exact fun e mem => nomatch mem
  | succ count ih =>
      obtain ⟨-, e, p', declared', rest, seen, rfl, later⟩ := readEntries_eq_ok read
      exact List.forall_mem_cons.mpr ⟨seen, ih later⟩

theorem placeEntries_eq_ok {e : ZipEntry} {rest : List ZipEntry} {placed : List PlacedEntry}
    (place : placeEntries buffer cdOffset (e :: rest) = .ok placed) :
    ∃ q later, placed = q :: later ∧ placeEntries buffer cdOffset rest = .ok later ∧ q.toZipEntry = e ∧
      q.stop = (rest.head?.map ZipEntry.localOffset).getD cdOffset ∧
      q.dataStart =
        e.localOffset + 30 + readUInt16LE buffer (e.localOffset + 26) + readUInt16LE buffer (e.localOffset + 28) ∧
      q.dataStart + e.compressedSize ≤ q.stop := by
  rw [placeEntries] at place
  obtain ⟨within, place⟩ := guard_eq_ok.mp place
  obtain ⟨later, all, is⟩ := bind_eq_ok.mp place
  exact ⟨_, later, (Except.ok.inj is).symm, all, rfl, rfl, rfl, Nat.le_of_not_lt within⟩

theorem placeEntries_placed {entries : List ZipEntry} {placed : List PlacedEntry}
    (central : readUInt32LE buffer cdOffset = SIG_CENTRAL) (seen : ∀ e ∈ entries, Seen buffer cdOffset e)
    (place : placeEntries buffer cdOffset entries = .ok placed) : ∀ q ∈ placed, Placed buffer cdOffset q := by
  induction entries generalizing placed with
  | nil =>
      rw [← Except.ok.inj place]
      exact fun q mem => nomatch mem
  | cons e rest ih =>
      obtain ⟨q, later, rfl, all, rfl, stop, dataStart, within⟩ := placeEntries_eq_ok place
      obtain ⟨first, others⟩ := List.forall_mem_cons.mp seen
      have ends : q.stop ≤ cdOffset ∧ startsRecord (buffer.drop q.stop) = true := by
        rw [stop]
        cases rest with
        | nil => exact ⟨le_refl _, startsRecord_of_central (by rwa [readUInt32LE_drop])⟩
        | cons next rest =>
            have here := others next (List.mem_cons_self ..)
            have before := here.before
            refine ⟨?_, startsRecord_of_local (by rw [readUInt32LE_drop]; exact here.signature)⟩
            change next.localOffset ≤ cdOffset
            omega
      exact List.forall_mem_cons.mpr ⟨⟨first, dataStart, within, ends.1, ends.2⟩, ih others all⟩

theorem placeEntries_ascending {entries : List ZipEntry} {placed : List PlacedEntry}
    (sorted : entries.Pairwise fun a b => a.localOffset ≤ b.localOffset)
    (place : placeEntries buffer cdOffset entries = .ok placed) :
    entries.Pairwise fun a b => a.localOffset < b.localOffset := by
  induction entries generalizing placed with
  | nil => exact List.Pairwise.nil
  | cons e rest ih =>
      obtain ⟨q, later, rfl, all, rfl, stop, dataStart, within⟩ := placeEntries_eq_ok place
      obtain ⟨least, others⟩ := List.pairwise_cons.mp sorted
      refine List.pairwise_cons.mpr ⟨fun b mem => ?_, ih others all⟩
      cases rest with
      | nil => exact absurd mem List.not_mem_nil
      | cons next rest =>
          have first : q.stop = next.localOffset := stop
          rcases List.mem_cons.mp mem with rfl | mem
          · omega
          · have order := (List.pairwise_cons.mp others).1 b mem
            omega

theorem sorted_byOffset (entries : List ZipEntry) :
    (entries.insertionSort fun a b => a.localOffset ≤ b.localOffset).Pairwise
      fun a b => a.localOffset ≤ b.localOffset := by
  have total : Std.Total fun a b : ZipEntry => a.localOffset ≤ b.localOffset := ⟨fun a b => Nat.le_total ..⟩
  have trans : IsTrans ZipEntry fun a b => a.localOffset ≤ b.localOffset := ⟨fun a b c => Nat.le_trans⟩
  exact List.pairwise_insertionSort _ entries

theorem nodup_of_ascending {entries sorted : List ZipEntry} (same : sorted.Perm entries)
    (ascending : sorted.Pairwise fun a b => a.localOffset < b.localOffset) : entries.Nodup := by
  refine same.nodup_iff.mp (ascending.imp fun {a b} order is => ?_)
  rw [is] at order
  exact Nat.lt_irrefl _ order

theorem nodup_placed {entries : List ZipEntry} (nodup : entries.Nodup) (placed : List PlacedEntry) :
    (entries.filterMap fun e => placed.find? fun p => p.toZipEntry = e).Nodup := by
  refine nodup.filterMap fun a b q first second => ?_
  have one := List.find?_some first
  have other := List.find?_some second
  rw [decide_eq_true_eq] at one other
  exact one.symm.trans other

theorem inspected_of_ok {maxEntries : Nat} {inspection : Inspection}
    (accepted : inspectXlsx buffer budget maxEntries = .ok inspection) : Inspected buffer inspection := by
  unfold inspectXlsx at accepted
  obtain ⟨-, accepted⟩ := guard_eq_ok.mp accepted
  cases found : findEocd buffer with
  | none =>
      rw [found] at accepted
      exact nomatch accepted
  | some eocd =>
      rw [found] at accepted
      dsimp only at accepted
      obtain ⟨-, accepted⟩ := guard_eq_ok.mp accepted
      obtain ⟨count, accepted⟩ := guard_eq_ok.mp accepted
      obtain ⟨-, accepted⟩ := guard_eq_ok.mp accepted
      obtain ⟨entries, read, accepted⟩ := bind_eq_ok.mp accepted
      obtain ⟨placed, place, accepted⟩ := bind_eq_ok.mp accepted
      obtain ⟨-, accepted⟩ := guard_eq_ok.mp accepted
      obtain ⟨-, accepted⟩ := guard_eq_ok.mp accepted
      obtain ⟨more, some⟩ := Nat.exists_eq_succ_of_ne_zero (fun none => count (.inl none))
      rw [some] at read
      obtain ⟨⟨within, central⟩, -⟩ := readEntries_eq_ok read
      have seen := readEntries_seen read
      have same := List.perm_insertionSort (fun a b : ZipEntry => a.localOffset ≤ b.localOffset) entries
      have ascending := placeEntries_ascending (sorted_byOffset entries) place
      rw [← Except.ok.inj accepted]
      refine ⟨fun q mem => ?_, nodup_placed (nodup_of_ascending same ascending) placed, central,
        Nat.le_trans (Nat.le_add_right ..) within⟩
      obtain ⟨e, -, hit⟩ := List.mem_filterMap.mp mem
      exact placeEntries_placed central (fun e mem => seen e (same.mem_iff.mp mem)) place q
        (List.mem_of_find?_eq_some hit)

/-! ## What is selected -/

theorem mem_orderedParts {inspection : Inspection} {e : PlacedEntry} (mem : e ∈ orderedParts inspection) :
    e ∈ inspection.entries := by
  rcases List.mem_append.mp mem with first | sheet
  · obtain ⟨n, -, hit⟩ := List.mem_filterMap.mp first
    exact List.mem_reverse.mp (List.mem_of_find?_eq_some hit)
  · exact (List.mem_filter.mp ((List.mem_insertionSort _).mp sheet)).1

theorem not_isSheet_of_ordered {n : String} (mem : n ∈ PART_ORDER) : isSheet n = false := by
  revert n
  decide +kernel

theorem named_of_find {entries : List PlacedEntry} {n : String} {e : PlacedEntry}
    (hit : (entries.find? fun e => e.name == n) = some e) : e.name = n := by
  have same := List.find?_some hit
  exact beq_iff_eq.mp same

/-- Nothing is selected twice. -/
theorem orderedParts_nodup {inspection : Inspection} (nodup : inspection.entries.Nodup) :
    (orderedParts inspection).Nodup := by
  refine List.nodup_append'.mpr ⟨?_, ?_, fun e first sheet => ?_⟩
  · have names : PART_ORDER.Nodup := by decide
    refine names.filterMap fun a b e first second => ?_
    exact (named_of_find first).symm.trans (named_of_find second)
  · exact (List.perm_insertionSort ..).nodup_iff.mpr (nodup.filter _)
  · obtain ⟨n, mem, hit⟩ := List.mem_filterMap.mp first
    have isSheet := (List.mem_filter.mp ((List.mem_insertionSort _).mp sheet)).2
    rw [named_of_find hit, not_isSheet_of_ordered mem] at isSheet
    exact nomatch isSheet

/-! ## What is counted -/

theorem countChunks_eq_ok {total counted : Nat} {chunks : List Bytes} (within : total ≤ budget)
    (count : countChunks budget total chunks = .ok counted) :
    counted = total + chunks.flatten.length ∧ counted ≤ budget := by
  induction chunks generalizing total with
  | nil =>
      rw [← Except.ok.inj count]
      exact ⟨rfl, within⟩
  | cons chunk rest ih =>
      rw [countChunks, List.foldlM_cons] at count
      obtain ⟨next, first, later⟩ := bind_eq_ok.mp count
      obtain ⟨fits, is⟩ := guard_eq_ok.mp first
      rw [← Except.ok.inj is] at later
      obtain ⟨sum, bound⟩ := ih (Nat.le_of_not_lt fits) later
      rw [List.flatten_cons, List.length_append, ← Nat.add_assoc]
      exact ⟨sum, bound⟩

def contentSize (inflate : Inflater) (buffer : Bytes) (e : PlacedEntry) : Nat :=
  ((decode inflate e.method (subarray buffer e.dataStart (e.dataStart + e.compressedSize))).getD []).length

theorem measureEntry_eq_ok {total counted : Nat} {e : PlacedEntry} (method : e.method = 0 ∨ e.method = 8)
    (within : total ≤ budget) (measure : measureEntry inflate buffer budget total e = .ok counted) :
    counted = total + contentSize inflate buffer e ∧ counted ≤ budget := by
  unfold measureEntry contentSize decode at *
  dsimp only at measure
  rcases method with stored | deflated
  · rw [if_pos stored] at measure ⊢
    have count := countChunks_eq_ok within measure
    rwa [List.flatten_singleton] at count
  · rw [if_neg (by omega)] at measure ⊢
    obtain ⟨sum, count, ends⟩ := bind_eq_ok.mp measure
    split at ends
    · rename_i complete
      rw [← Except.ok.inj ends, if_pos ⟨deflated, complete⟩]
      exact countChunks_eq_ok within count
    · exact nomatch ends

theorem measure_eq_ok {parts : List PlacedEntry} {total counted : Nat}
    (methods : ∀ e ∈ parts, e.method = 0 ∨ e.method = 8) (within : total ≤ budget)
    (measure : parts.foldlM (measureEntry inflate buffer budget) total = .ok counted) :
    counted = total + (parts.map (contentSize inflate buffer)).sum ∧ counted ≤ budget := by
  induction parts generalizing total with
  | nil =>
      rw [← Except.ok.inj measure]
      exact ⟨rfl, within⟩
  | cons e rest ih =>
      obtain ⟨first, others⟩ := List.forall_mem_cons.mp methods
      rw [List.foldlM_cons] at measure
      obtain ⟨next, one, later⟩ := bind_eq_ok.mp measure
      obtain ⟨rfl, bound⟩ := measureEntry_eq_ok first within one
      obtain ⟨sum, bound⟩ := ih others bound later
      rw [List.map_cons, List.sum_cons, ← Nat.add_assoc]
      exact ⟨sum, bound⟩

theorem measured {inspection : Inspection} {total : Nat} (inspected : Inspected buffer inspection)
    (measure : measureInflatedSize inflate buffer inspection budget = .ok total) :
    ((orderedParts inspection).map (contentSize inflate buffer)).sum ≤ budget := by
  have methods : ∀ e ∈ orderedParts inspection, e.method = 0 ∨ e.method = 8 :=
    fun e mem => (inspected.placed e (mem_orderedParts mem)).method
  obtain ⟨sum, bound⟩ := measure_eq_ok methods (Nat.zero_le budget) measure
  omega

end AnalyticsBackend.Connectors
