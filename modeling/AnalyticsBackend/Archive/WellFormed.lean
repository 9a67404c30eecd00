import AnalyticsBackend.Archive.Manifest
import Mathlib.Data.List.Nodup

/-!
# Accepted manifests

What a manifest is meant to say, and that `validateManifest` accepts those manifests and no others.
A manifest that it does not accept is refused with an `ArchiveError`, save for three kinds of values
on which the check itself breaks off.
-/

namespace AnalyticsBackend.Archive
open Lib

/-! ## The structure of a manifest -/

/-- A path below the directory of the archive: no segment is empty or leads upwards. -/
def SafeMember (file : String) : Prop :=
  ∀ part ∈ splitChars '/' file.toList,
    part ≠ [] ∧ part ≠ ['.', '.'] ∧ ∀ c ∈ part, isMemberChar c = true

def IsCount (value : Js) : Prop := ∃ n : ℕ, value = .num (.finite n)

def IsHex (length : ℕ) (value : Js) : Prop :=
  ∃ s, value = .str s ∧ s.toList.length = length ∧ ∀ c ∈ s.toList, isLowerHex c = true

structure FileRecord (record : Js) (file : String) : Prop where
  named : get record "file" = .str file
  safe : SafeMember file
  bytes : IsCount (get record "bytes")
  sha256 : IsHex 64 (get record "sha256")

structure CollectionRecord (catalogue : Catalogue) (record : Js) (known : Exported) : Prop
    extends FileRecord record known.file where
  model : get record "model" = .str known.model
  exported : known ∈ catalogue.exported
  collection : get record "collection" = .str known.collectionName
  count : IsCount (get record "count")
  contentSha256 : IsHex 64 (get record "contentSha256")

structure DatasetRecord (record : Js) (file : String) : Prop extends FileRecord record file where
  connectorId : IsHex 24 (get record "connectorId")
  rows : IsCount (get record "rows")

structure Header (manifest : Js) : Prop where
  format : get manifest "format" = .str ARCHIVE_FORMAT
  formatVersion : get manifest "formatVersion" = .num (.finite 1)
  exportId : ∃ s, get manifest "exportId" = .str s ∧ exportIdPattern s.toList = true
  tenant : IsHex 24 (get (get manifest "tenant") "id")

/-- The collections of a manifest are those of the catalogue's rows `known`. -/
structure Collections (catalogue : Catalogue) (manifest : Js) (known : List Exported) : Prop where
  records : ∃ records, get manifest "collections" = .arr records ∧
    List.Forall₂ (CollectionRecord catalogue) records known
  models : (known.map (·.model)).Nodup
  tenant : "Tenant" ∈ known.map (·.model)

def Listed (value : Js) (records : List Js) : Prop :=
  (value.isNullish = true ∧ records = []) ∨ value = .arr records

/-- The records of an optional list are `files`, none of which is among the `others`. -/
def Files (Record : Js → String → Prop) (value : Js) (others files : List String) : Prop :=
  ∃ records, Listed value records ∧ List.Forall₂ Record records files ∧ (others ++ files).Nodup

structure WellFormed (catalogue : Catalogue) (manifest : Js) : Prop where
  header : Header manifest
  files : ∃ known datasets references,
    Collections catalogue manifest known ∧
    Files DatasetRecord (get manifest "datasets") (known.map (·.file)) datasets ∧
    Files FileRecord (get manifest "references") (known.map (·.file) ++ datasets) references

/-! ## Checks -/

theorem check_eq_ok {holds : Bool} {message : String} {details : Option Js} {u : Unit} :
    check holds message details = .ok u ↔ holds = true := by
  cases holds with
  | false => simp [check, fail]
  | true => simp [check]

/-- A computation that ends or throws its own error. -/
def Clean {α : Type} (result : Except Thrown α) : Prop := result ≠ .error .typeError

theorem clean_ok {α : Type} (a : α) : Clean (.ok a : Except Thrown α) := nofun

theorem clean_fail {α : Type} (message : String) (details : Option Js) :
    Clean (fail message details : Except Thrown α) := by simp [Clean, fail]

theorem clean_check (holds : Bool) (message : String) (details : Option Js) :
    Clean (check holds message details) := by
  cases holds with
  | false => exact clean_fail message details
  | true => exact clean_ok ()

/-- The first computation decides, and where it ends the second. -/
theorem clean_bind {α β : Type} {x : Except Thrown α} {f : α → Except Thrown β} :
    Clean (x >>= f) ↔ Clean x ∧ ∀ a, x = .ok a → Clean (f a) := by
  cases x with
  | error e => simp [Clean]
  | ok a => simp [Clean]

theorem Clean.bind {α β : Type} {x : Except Thrown α} {f : α → Except Thrown β} (first : Clean x)
    (next : ∀ a, x = .ok a → Clean (f a)) : Clean (x >>= f) := clean_bind.mpr ⟨first, next⟩

/-! ## Values -/

theorem isText_iff {value : Js} {text : String} : isText value text = true ↔ value = .str text := by
  cases value <;> simp [isText, Js.text]

theorem matching_iff {pattern : List Char → Bool} {value : Js} :
    matching pattern value = true ↔ ∃ s, value = .str s ∧ pattern s.toList = true := by
  cases value <;> simp [matching]

theorem isCount_iff {value : Js} : isCount value = true ↔ IsCount value := by
  constructor
  · intro holds
    match value, holds with
    | .num (.finite q), holds =>
        simp only [isCount, Magnitude.integer] at holds
        split at holds
        next whole =>
          have sign : 0 ≤ q.num := by simpa using holds
          obtain ⟨n, hn⟩ := Int.eq_ofNat_of_zero_le sign
          refine ⟨n, ?_⟩
          have value : q = n := by
            rw [← Rat.coe_int_num_of_den_eq_one whole, hn]
            rfl
          rw [value]
        next => simp at holds
  · rintro ⟨n, rfl⟩
    simp [isCount, Magnitude.integer]

theorem matching_hex {length : ℕ} {value : Js} :
    matching (fun s => s.length == length && s.all isLowerHex) value = true ↔ IsHex length value := by
  simp [matching_iff, IsHex]

theorem safeMember_iff {file : String} : safeMember file.toList = true ↔ SafeMember file := by
  simp only [safeMember, SafeMember, Bool.and_eq_true, List.all_eq_true, Bool.not_eq_true',
    List.isEmpty_eq_false_iff, List.contains_eq_mem, decide_eq_false_iff_not]
  constructor
  · rintro ⟨parts, upwards⟩ part mem
    exact ⟨(parts part mem).1, fun eq => upwards (eq ▸ mem), (parts part mem).2⟩
  · intro safe
    exact ⟨fun part mem => ⟨(safe part mem).1, (safe part mem).2.2⟩,
      fun mem => (safe _ mem).2.1 rfl⟩

theorem object_of_text {value : Js} {name text : String} (read : get value name = .str text) :
    ∃ fields, value = .obj fields := by
  cases value with
  | obj fields => exact ⟨fields, rfl⟩
  | _ => cases read

/-! ## Records -/

theorem FileRecord.fileOf_eq {record : Js} {file : String} (valid : FileRecord record file) :
    fileOf record = file := by
  rw [fileOf, valid.named]
  rfl

theorem checkFileRecord_eq_ok {record : Js} {label : String} {u : Unit} :
    checkFileRecord record label = .ok u ↔ ∃ file, FileRecord record file := by
  simp only [checkFileRecord, bind_eq_ok, check_eq_ok, isCount_iff]
  constructor
  · rintro ⟨_, -, _, named, _, bytes, sha256⟩
    obtain ⟨file, named, safe⟩ := matching_iff.mp named
    exact ⟨file, named, safeMember_iff.mp safe, bytes, matching_hex.mp sha256⟩
  · rintro ⟨file, valid⟩
    obtain ⟨fields, rfl⟩ := object_of_text valid.named
    exact ⟨(), rfl, (), matching_iff.mpr ⟨file, valid.named, safeMember_iff.mpr valid.safe⟩, (),
      valid.bytes, matching_hex.mpr valid.sha256⟩

theorem checkFileRecord_clean (record : Js) (label : String) :
    Clean (checkFileRecord record label) :=
  (clean_check _ _ _).bind fun _ _ => (clean_check _ _ _).bind fun _ _ =>
    (clean_check _ _ _).bind fun _ _ => clean_check _ _ _

variable {catalogue : Catalogue}

theorem exportedEntry_eq_some {model : Js} {known : Exported} :
    catalogue.exportedEntry model = some known ↔
      known ∈ catalogue.exported ∧ model = .str known.model := by
  unfold Catalogue.exportedEntry
  constructor
  · intro found
    exact ⟨List.mem_of_find?_eq_some found, isText_iff.mp (List.find?_some (p := fun entry : Exported => isText model entry.model) found)⟩
  · rintro ⟨mem, rfl⟩
    have named : isText (.str known.model) known.model = true := isText_iff.mpr rfl
    obtain ⟨other, found⟩ : ∃ other,
        catalogue.exported.find? (fun entry => isText (.str known.model) entry.model) = some other :=
      Option.isSome_iff_exists.mp (List.find?_isSome.mpr ⟨known, mem, named⟩)
    have same := isText_iff.mp
      (List.find?_some (p := fun entry : Exported => isText (.str known.model) entry.model) found)
    have other_mem := List.mem_of_find?_eq_some found
    have : other = known :=
      List.inj_on_of_nodup_map catalogue.models other_mem mem (Js.str.inj same).symm
    rw [found, this]

theorem checkCollection_eq_ok {seen : List String} {entry : Js} {label : String} {known : Exported} :
    checkCollection catalogue seen entry label = .ok known ↔
      CollectionRecord catalogue entry known ∧ known.model ∉ seen := by
  simp only [checkCollection, bind_eq_ok, checkFileRecord_eq_ok]
  constructor
  · rintro ⟨_, ⟨file, valid⟩, rest⟩
    split at rest
    next => simp [fail] at rest
    next other found =>
      simp only [bind_eq_ok, check_eq_ok, Bool.and_eq_true, isText_iff, isCount_iff,
        Bool.not_eq_true', List.contains_eq_mem, decide_eq_false_iff_not] at rest
      obtain ⟨_, ⟨collection, named⟩, _, fresh, _, count, _, content, same⟩ := rest
      cases same
      obtain ⟨exported, model⟩ := exportedEntry_eq_some.mp found
      have path : file = known.file := Js.str.inj (valid.named.symm.trans named)
      subst path
      exact ⟨⟨valid, model, exported, collection, count, matching_hex.mp content⟩, fresh⟩
  · rintro ⟨valid, fresh⟩
    refine ⟨(), ⟨_, valid.toFileRecord⟩, ?_⟩
    rw [exportedEntry_eq_some.mpr ⟨valid.exported, valid.model⟩]
    simp only [bind_eq_ok, check_eq_ok, Bool.and_eq_true, isText_iff, isCount_iff,
      Bool.not_eq_true', List.contains_eq_mem, decide_eq_false_iff_not]
    exact ⟨(), ⟨valid.collection, valid.named⟩, (), fresh, (), valid.count, (),
      matching_hex.mpr valid.contentSha256, rfl⟩

theorem checkCollection_clean (seen : List String) (entry : Js) (label : String) :
    Clean (checkCollection catalogue seen entry label) := by
  refine (checkFileRecord_clean _ _).bind fun _ _ => ?_
  split
  · exact clean_fail _ _
  · exact (clean_check _ _ _).bind fun _ _ => (clean_check _ _ _).bind fun _ _ =>
      (clean_check _ _ _).bind fun _ _ => (clean_check _ _ _).bind fun _ _ => clean_ok _

theorem nodup_concat {seen : List String} {s : String} (distinct : seen.Nodup) (fresh : s ∉ seen) :
    (seen ++ [s]).Nodup := by
  refine List.nodup_append.mpr ⟨distinct, List.nodup_singleton _, ?_⟩
  intro other mem single single_mem same
  rw [List.mem_singleton.mp single_mem] at same
  exact fresh (same ▸ mem)

theorem notMem_of_nodup_concat {seen : List String} {s : String} (nodup : (seen ++ [s]).Nodup) :
    s ∉ seen :=
  fun mem => (List.nodup_append.mp nodup).2.2 _ mem _ (List.mem_singleton_self _) rfl

theorem checkCollections_eq_ok {index : ℕ} {models files : List String} {records : List Js}
    {seen : List String × List String} (distinct : models.Nodup) :
    checkCollections catalogue index models files records = .ok seen ↔
      ∃ known, List.Forall₂ (CollectionRecord catalogue) records known ∧
        (models ++ known.map (·.model)).Nodup ∧
        seen = (models ++ known.map (·.model), files ++ known.map (·.file)) := by
  induction records generalizing index models files with
  | nil =>
      simp only [checkCollections, List.forall₂_nil_left_iff]
      constructor
      · intro eq
        exact ⟨[], rfl, by simpa using distinct, by simpa using (Except.ok.inj eq).symm⟩
      · rintro ⟨_, rfl, -, rfl⟩
        simp
  | cons entry rest ih =>
      simp only [checkCollections, bind_eq_ok, checkCollection_eq_ok]
      constructor
      · rintro ⟨row, ⟨valid, fresh⟩, eq⟩
        obtain ⟨known, all, nodup, rfl⟩ := (ih (nodup_concat distinct fresh)).mp eq
        rw [valid.fileOf_eq]
        exact ⟨row :: known, .cons valid all, by simpa using nodup, by simp⟩
      · rintro ⟨known, all, nodup, rfl⟩
        cases all with
        | @cons _ row _ known valid all =>
            have split : (models ++ [row.model] ++ known.map (·.model)).Nodup := by simpa using nodup
            have more := (List.nodup_append.mp split).1
            refine ⟨row, ⟨valid, notMem_of_nodup_concat more⟩, (ih more).mpr ⟨known, all, split, ?_⟩⟩
            rw [valid.fileOf_eq]
            simp

theorem checkCollections_clean (index : ℕ) (models files : List String) (records : List Js) :
    Clean (checkCollections catalogue index models files records) := by
  induction records generalizing index models files with
  | nil => exact clean_ok _
  | cons entry rest ih => exact (checkCollection_clean _ _ _).bind fun _ _ => ih _ _ _

section Files

variable {list : String} {more : Js → String → Except Thrown Unit} {Record : Js → String → Prop}

theorem checkFiles_eq_ok
    (valid_iff : ∀ record label, (checkFileRecord record label = .ok () ∧ more record label = .ok ()) ↔
      ∃ file, Record record file)
    (named : ∀ {record file}, Record record file → fileOf record = file)
    {index : ℕ} {seen : List String} {records : List Js} {out : List String} (distinct : seen.Nodup) :
    checkFiles list more index seen records = .ok out ↔
      ∃ files, List.Forall₂ Record records files ∧ (seen ++ files).Nodup ∧ out = seen ++ files := by
  induction records generalizing index seen with
  | nil =>
      simp only [checkFiles, List.forall₂_nil_left_iff]
      constructor
      · intro eq
        exact ⟨[], rfl, by simpa using distinct, by simpa using (Except.ok.inj eq).symm⟩
      · rintro ⟨_, rfl, -, rfl⟩
        simp
  | cons record rest ih =>
      simp only [checkFiles, bind_eq_ok, check_eq_ok, Bool.not_eq_true', List.contains_eq_mem,
        decide_eq_false_iff_not]
      constructor
      · rintro ⟨_, first, _, second, _, fresh, eq⟩
        obtain ⟨file, valid⟩ := (valid_iff _ _).mp ⟨first, second⟩
        rw [named valid] at fresh eq
        obtain ⟨files, all, nodup, rfl⟩ := (ih (nodup_concat distinct fresh)).mp eq
        exact ⟨file :: files, .cons valid all, by simpa using nodup, by simp⟩
      · rintro ⟨files, all, nodup, rfl⟩
        cases all with
        | @cons _ file _ files valid all =>
            have split : (seen ++ [file] ++ files).Nodup := by simpa using nodup
            have more_nodup := (List.nodup_append.mp split).1
            obtain ⟨first, second⟩ := (valid_iff record s!"manifest.{list}[{index}]").mpr ⟨file, valid⟩
            refine ⟨(), first, (), second, (), ?_, ?_⟩
            · rw [named valid]
              exact notMem_of_nodup_concat more_nodup
            · rw [named valid]
              exact (ih more_nodup).mpr ⟨files, all, split, by simp⟩

theorem checkFiles_clean (clean : ∀ record label, Clean (more record label)) (index : ℕ)
    (seen : List String) (records : List Js) : Clean (checkFiles list more index seen records) := by
  induction records generalizing index seen with
  | nil => exact clean_ok _
  | cons record rest ih =>
      exact (checkFileRecord_clean _ _).bind fun _ _ => (clean _ _).bind fun _ _ =>
        (clean_check _ _ _).bind fun _ _ => ih _ _

end Files

theorem checkDatasets_eq_ok {index : ℕ} {seen : List String} {records : List Js} {out : List String}
    (distinct : seen.Nodup) :
    checkDatasets index seen records = .ok out ↔
      ∃ files, List.Forall₂ DatasetRecord records files ∧ (seen ++ files).Nodup ∧
        out = seen ++ files := by
  refine checkFiles_eq_ok (fun record label => ?_) (fun valid => valid.toFileRecord.fileOf_eq) distinct
  simp only [checkFileRecord_eq_ok, checkDataset, bind_eq_ok, check_eq_ok, isCount_iff]
  constructor
  · rintro ⟨⟨file, valid⟩, _, connector, rows⟩
    exact ⟨file, valid, matching_hex.mp connector, rows⟩
  · rintro ⟨file, valid⟩
    exact ⟨⟨file, valid.toFileRecord⟩, (), matching_hex.mpr valid.connectorId, valid.rows⟩

theorem checkDatasets_clean (index : ℕ) (seen : List String) (records : List Js) :
    Clean (checkDatasets index seen records) :=
  checkFiles_clean (fun _ _ => (clean_check _ _ _).bind fun _ _ => clean_check _ _ _) _ _ _

theorem checkReferences_eq_ok {index : ℕ} {seen : List String} {records : List Js}
    {out : List String} (distinct : seen.Nodup) :
    checkReferences index seen records = .ok out ↔
      ∃ files, List.Forall₂ FileRecord records files ∧ (seen ++ files).Nodup ∧ out = seen ++ files := by
  refine checkFiles_eq_ok (fun record label => ?_) (fun valid => valid.fileOf_eq) distinct
  simp only [checkFileRecord_eq_ok, and_true]

theorem checkReferences_clean (index : ℕ) (seen : List String) (records : List Js) :
    Clean (checkReferences index seen records) := checkFiles_clean (fun _ _ => clean_ok ()) _ _ _

/-- Two collections have two files. -/
theorem Exported.file_inj {a b : Exported} (same : a.file = b.file) :
    a.collectionName = b.collectionName := by
  unfold Exported.file at same
  exact String.append_right_inj _ |>.mp (String.append_left_inj _ |>.mp same)

theorem exported_of_records {records : List Js} {known : List Exported}
    (all : List.Forall₂ (CollectionRecord catalogue) records known) :
    ∀ row ∈ known, row ∈ catalogue.exported := by
  induction all with
  | nil => simp
  | cons valid _ ih => exact List.forall_mem_cons.mpr ⟨valid.exported, ih⟩

theorem Collections.files_nodup {manifest : Js} {known : List Exported}
    (collections : Collections catalogue manifest known) : (known.map (·.file)).Nodup := by
  obtain ⟨records, -, all⟩ := collections.records
  have exported := exported_of_records all
  refine List.Nodup.map_on (fun row mem other mem' same => ?_) collections.models.of_map
  exact List.inj_on_of_nodup_map catalogue.collections (exported row mem) (exported other mem')
    (Exported.file_inj same)

/-! ## The header -/

/-- A value that has a text. -/
inductive Printable : Js → Prop
  | undefined : Printable .undefined
  | null : Printable .null
  | bool (b : Bool) : Printable (.bool b)
  | num (n : Magnitude) : Printable (.num n)
  | str (s : String) : Printable (.str s)
  | date (ms : Option Int) : Printable (.date ms)
  | arr {items : List Js} (each : ∀ item ∈ items, Printable item) : Printable (.arr items)
  | obj {fields : List (String × Js)} (inherits : JsObject.has fields "toString" = false) :
      Printable (.obj fields)

variable {wording : Wording}

mutual

theorem toText_isSome_iff : ∀ value : Js, (toText wording value).isSome = true ↔ Printable value
  | .undefined => by simp [toText, Printable.undefined]
  | .null => by simp [toText, Printable.null]
  | .bool b => by simp [toText, Printable.bool b]
  | .num n => by simp [toText, Printable.num n]
  | .str s => by simp [toText, Printable.str s]
  | .date ms => by simp [toText, Printable.date ms]
  | .arr items => by
      rw [toText, Option.isSome_map, elementTexts_isSome_iff items]
      constructor
      · exact .arr
      · intro printable
        cases printable with
        | arr each => exact each
  | .obj fields => by
      rw [toText]
      constructor
      · intro found
        split at found
        next => simp at found
        next inherits => exact .obj (Bool.not_eq_true _ ▸ inherits)
      · intro printable
        cases printable with
        | obj inherits => simp [inherits]

theorem elementTexts_isSome_iff : ∀ items : List Js,
    (elementTexts wording items).isSome = true ↔ ∀ item ∈ items, Printable item
  | [] => by simp [elementTexts]
  | item :: rest => by
      have first : (if item.isNullish then some "" else toText wording item).isSome = true ↔
          Printable item := by
        split
        next nullish =>
          cases item with
          | undefined => simp [Printable.undefined]
          | null => simp [Printable.null]
          | _ => simp [Js.isNullish] at nullish
        next => exact toText_isSome_iff item
      have others := elementTexts_isSome_iff rest
      rw [elementTexts, List.forall_mem_cons, ← first, ← others]
      cases (if item.isNullish then some "" else toText wording item) with
      | none => simp
      | some text =>
          cases elementTexts wording rest with
          | none => simp
          | some texts => simp

end

theorem checkVersion_eq_ok {version : Js} {u : Unit} :
    checkVersion wording version = .ok u ↔ version = .num (.finite 1) := by
  unfold checkVersion
  split
  · simp
  next other =>
    constructor
    · intro eq
      split at eq <;> simp at eq
    · intro same
      exact absurd same other

theorem checkVersion_clean {version : Js} :
    Clean (checkVersion wording version) ↔ Printable version := by
  rw [← @toText_isSome_iff wording]
  unfold checkVersion
  split
  · simp [Clean, toText]
  · split
    next none => simp [Clean, none]
    next text found => simp [Clean, found]

theorem checkHeader_eq_ok {manifest : Js} {u : Unit} :
    checkHeader wording manifest = .ok u ↔ Header manifest := by
  simp only [checkHeader, bind_eq_ok, check_eq_ok, checkVersion_eq_ok, isText_iff, matching_iff]
  constructor
  · rintro ⟨_, -, _, format, _, version, _, exportId, tenant⟩
    exact ⟨format, version, exportId, matching_hex.mp (matching_iff.mpr tenant)⟩
  · intro header
    obtain ⟨fields, rfl⟩ := object_of_text header.format
    exact ⟨(), rfl, (), header.format, (), header.formatVersion, (), header.exportId,
      matching_iff.mp (matching_hex.mpr header.tenant)⟩

theorem checkHeader_clean {manifest : Js} :
    Clean (checkHeader wording manifest) ↔
      (get manifest "format" = .str ARCHIVE_FORMAT → Printable (get manifest "formatVersion")) := by
  simp only [checkHeader, clean_bind, clean_check, check_eq_ok, checkVersion_clean, isText_iff,
    true_and, implies_true, and_true]
  constructor
  · intro clean format
    obtain ⟨fields, rfl⟩ := object_of_text format
    exact clean () rfl () format
  · intro clean _ _ _ format
    exact clean format

/-! ## The whole manifest -/

theorem checkNonEmpty_eq_ok {value : Js} {records : List Js} :
    checkNonEmpty value = .ok records ↔ value = .arr records ∧ records ≠ [] := by
  unfold checkNonEmpty
  split
  · constructor
    · intro eq
      cases eq
      exact ⟨rfl, List.cons_ne_nil _ _⟩
    · rintro ⟨same, -⟩
      cases same
      rfl
  next other =>
    simp only [fail, reduceCtorEq, false_iff]
    rintro ⟨rfl, some⟩
    obtain ⟨entry, rest, rfl⟩ := List.exists_cons_of_ne_nil some
    exact other entry rest rfl

theorem checkNonEmpty_clean (value : Js) : Clean (checkNonEmpty value) := by
  unfold checkNonEmpty
  split
  · exact clean_ok _
  · exact clean_fail _ _

theorem entries_eq_ok {value : Js} {records : List Js} :
    entries value = .ok records ↔ Listed value records := by
  cases value <;> simp [entries, Listed, Js.isNullish, eq_comm]

theorem entries_clean {value : Js} : Clean (entries value) ↔ ∃ records, Listed value records := by
  cases value <;> simp [entries, Clean, Listed, Js.isNullish]

theorem Listed.isArray {value : Js} {records : List Js} (listed : Listed value records) :
    isArray (orEmpty value) = true := by
  rcases listed with ⟨nullish, -⟩ | rfl
  · cases value with
    | undefined => rfl
    | null => rfl
    | _ => simp [Js.isNullish] at nullish
  · rfl

theorem collections_iff {manifest : Js} {seen : List String × List String} :
    (∃ records, checkNonEmpty (get manifest "collections") = .ok records ∧
        checkCollections catalogue 0 [] [] records = .ok seen ∧ "Tenant" ∈ seen.1) ↔
      ∃ known, Collections catalogue manifest known ∧
        seen = (known.map (·.model), known.map (·.file)) := by
  constructor
  · rintro ⟨records, some, run, tenant⟩
    obtain ⟨known, all, nodup, rfl⟩ := (checkCollections_eq_ok List.nodup_nil).mp run
    exact ⟨known, ⟨⟨records, (checkNonEmpty_eq_ok.mp some).1, all⟩, nodup, tenant⟩, rfl⟩
  · rintro ⟨known, valid, rfl⟩
    obtain ⟨records, value, all⟩ := valid.records
    have some : records ≠ [] := by
      rintro rfl
      cases all
      simpa using valid.tenant
    exact ⟨records, checkNonEmpty_eq_ok.mpr ⟨value, some⟩,
      (checkCollections_eq_ok List.nodup_nil).mpr ⟨known, all, valid.models, rfl⟩, valid.tenant⟩

theorem validateManifest_eq_ok {manifest returned : Js} :
    validateManifest wording catalogue manifest = .ok returned ↔
      returned = manifest ∧ WellFormed catalogue manifest := by
  simp only [validateManifest, bind_eq_ok, checkHeader_eq_ok, check_eq_ok, List.contains_eq_mem,
    decide_eq_true_eq, entries_eq_ok]
  constructor
  · rintro ⟨_, header, records, some, seen, run, _, tenant, datasets, listed, files, data,
      references, listed', files', refs, _, -, _, -, same⟩
    obtain ⟨known, valid, rfl⟩ := collections_iff.mp ⟨records, some, run, tenant⟩
    obtain ⟨dataFiles, all, nodup, rfl⟩ := (checkDatasets_eq_ok valid.files_nodup).mp data
    obtain ⟨refFiles, all', nodup', rfl⟩ := (checkReferences_eq_ok nodup).mp refs
    exact ⟨(Except.ok.inj same).symm, header, known, dataFiles, refFiles, valid,
      ⟨datasets, listed, all, nodup⟩, ⟨references, listed', all', nodup'⟩⟩
  · rintro ⟨rfl, header, known, dataFiles, refFiles, valid, ⟨datasets, listed, all, nodup⟩,
      ⟨references, listed', all', nodup'⟩⟩
    obtain ⟨records, some, run, tenant⟩ := collections_iff.mpr ⟨known, valid, rfl⟩
    exact ⟨(), header, records, some, _, run, (), tenant, datasets, listed, _,
      (checkDatasets_eq_ok valid.files_nodup).mpr ⟨dataFiles, all, nodup, rfl⟩, references, listed',
      _, (checkReferences_eq_ok nodup).mpr ⟨refFiles, all', nodup', rfl⟩, (), listed.isArray, (),
      listed'.isArray, rfl⟩

/-- Where the check goes through: the version it does not know can be quoted, and what comes after
well-formed collections, and after well-formed datasets, is a list or missing. -/
structure Readable (catalogue : Catalogue) (manifest : Js) : Prop where
  version : get manifest "format" = .str ARCHIVE_FORMAT → Printable (get manifest "formatVersion")
  datasets : ∀ known, Header manifest → Collections catalogue manifest known →
    ∃ records, Listed (get manifest "datasets") records
  references : ∀ known datasets, Header manifest → Collections catalogue manifest known →
    Files DatasetRecord (get manifest "datasets") (known.map (·.file)) datasets →
    ∃ records, Listed (get manifest "references") records

theorem validateManifest_clean {manifest : Js} :
    Clean (validateManifest wording catalogue manifest) ↔ Readable catalogue manifest := by
  simp only [validateManifest, clean_bind, checkHeader_clean, checkHeader_eq_ok,
    checkNonEmpty_clean, checkCollections_clean, clean_check, check_eq_ok, List.contains_eq_mem,
    decide_eq_true_eq, entries_clean, entries_eq_ok, checkDatasets_clean, checkReferences_clean,
    true_and]
  constructor
  · rintro ⟨version, rest⟩
    refine ⟨version, ?_, ?_⟩
    · intro known header valid
      obtain ⟨records, some, run, tenant⟩ := collections_iff.mpr ⟨known, valid, rfl⟩
      exact (rest () header records some _ run () tenant).1
    · rintro known files header valid ⟨datasets, listed, all, nodup⟩
      obtain ⟨records, some, run, tenant⟩ := collections_iff.mpr ⟨known, valid, rfl⟩
      exact ((rest () header records some _ run () tenant).2 datasets listed _
        ((checkDatasets_eq_ok valid.files_nodup).mpr ⟨files, all, nodup, rfl⟩)).1
  · intro readable
    refine ⟨readable.version, fun _ header records some seen run _ tenant => ?_⟩
    obtain ⟨known, valid, rfl⟩ := collections_iff.mp ⟨records, some, run, tenant⟩
    refine ⟨readable.datasets known header valid, fun datasets listed files data => ?_⟩
    obtain ⟨dataFiles, all, nodup, rfl⟩ := (checkDatasets_eq_ok valid.files_nodup).mp data
    exact ⟨readable.references known dataFiles header valid ⟨datasets, listed, all, nodup⟩,
      fun _ _ _ _ _ _ _ _ => clean_ok _⟩

/-! ## What is read of an accepted manifest -/

/-- A listed file has all that the reader of the archive compares. -/
structure Complete (listed : ListedFile) : Prop where
  file : ∃ file, listed.file = .str file ∧ SafeMember file
  bytes : IsCount listed.bytes
  sha256 : IsHex 64 listed.sha256

theorem FileRecord.listed {record : Js} {file : String} (valid : FileRecord record file) :
    ∃ listed, listedFile record = .ok listed ∧ Complete listed := by
  obtain ⟨fields, rfl⟩ := object_of_text valid.named
  exact ⟨_, rfl, ⟨file, valid.named, valid.safe⟩, valid.bytes, valid.sha256⟩

theorem listed_of_records {records : List Js}
    (all : ∀ record ∈ records, ∃ file, FileRecord record file) :
    ∃ files, records.mapM listedFile = .ok files ∧ ∀ listed ∈ files, Complete listed := by
  induction records with
  | nil => exact ⟨[], rfl, by simp⟩
  | cons record rest ih =>
      obtain ⟨⟨file, valid⟩, others⟩ := List.forall_mem_cons.mp all
      obtain ⟨listed, first, complete⟩ := valid.listed
      obtain ⟨files, ran, each⟩ := ih others
      refine ⟨listed :: files, ?_, List.forall_mem_cons.mpr ⟨complete, each⟩⟩
      rw [List.mapM_cons, first, ran]
      rfl

theorem Listed.spread {value : Js} {records : List Js} (listed : Listed value records) :
    spread (orEmpty value) = .ok records := by
  rcases listed with ⟨nullish, rfl⟩ | rfl
  · cases value with
    | undefined => rfl
    | null => rfl
    | _ => simp [Js.isNullish] at nullish
  · rfl

theorem left_of_forall₂ {R : Js → β → Prop} {P : Js → Prop} (implies : ∀ a b, R a b → P a)
    {as : List Js} {bs : List β} (all : List.Forall₂ R as bs) : ∀ a ∈ as, P a := by
  induction all with
  | nil => simp
  | cons related _ ih => exact List.forall_mem_cons.mpr ⟨implies _ _ related, ih⟩

theorem listedFiles_complete {manifest : Js} (valid : WellFormed catalogue manifest) :
    ∃ files, listedFiles manifest = .ok files ∧ ∀ listed ∈ files, Complete listed := by
  obtain ⟨known, dataFiles, refFiles, collections, ⟨datasets, listed, all, -⟩,
    ⟨references, listed', all', -⟩⟩ := valid.files
  obtain ⟨records, value, rows⟩ := collections.records
  have each : ∀ record ∈ records ++ datasets ++ references, ∃ file, FileRecord record file := by
    rw [List.forall_mem_append, List.forall_mem_append]
    refine ⟨⟨?_, ?_⟩, ?_⟩
    · exact left_of_forall₂ (fun _ _ valid => ⟨_, valid.toFileRecord⟩) rows
    · exact left_of_forall₂ (fun _ _ valid => ⟨_, valid.toFileRecord⟩) all
    · exact left_of_forall₂ (fun _ _ valid => ⟨_, valid⟩) all'
  obtain ⟨files, ran, complete⟩ := listed_of_records each
  refine ⟨files, ?_, complete⟩
  rw [listedFiles, value, listed.spread, listed'.spread]
  exact ran

/-- The manifest is returned and is well formed, and every file that it lists is complete, or it is
not well formed and refused with an `ArchiveError`. -/
def JudgedCleanly (wording : Wording) (catalogue : Catalogue) (manifest : Js) : Prop :=
  match validateManifest wording catalogue manifest with
  | .ok returned => returned = manifest ∧ WellFormed catalogue manifest ∧
      ∃ files, listedFiles manifest = .ok files ∧ ∀ listed ∈ files, Complete listed
  | .error (.archive _) => ¬ WellFormed catalogue manifest
  | .error .typeError => False

/-- The check breaks off on an unknown version without a text, and on a `datasets` or `references`
that is neither missing nor a list. Everything else it judges. -/
theorem manifest_judged_cleanly_iff (wording : Wording) (catalogue : Catalogue) (manifest : Js) :
    JudgedCleanly wording catalogue manifest ↔ Readable catalogue manifest := by
  rw [← @validateManifest_clean catalogue wording, JudgedCleanly]
  have accepted (returned : Js) : validateManifest wording catalogue manifest = .ok returned ↔
      returned = manifest ∧ WellFormed catalogue manifest := validateManifest_eq_ok
  cases judged : validateManifest wording catalogue manifest with
  | ok returned =>
      obtain ⟨same, valid⟩ := (accepted returned).mp judged
      exact iff_of_true ⟨same, valid, listedFiles_complete valid⟩ (clean_ok _)
  | error thrown =>
      have malformed : ¬ WellFormed catalogue manifest := by
        intro valid
        rw [(accepted manifest).mpr ⟨rfl, valid⟩] at judged
        cases judged
      cases thrown with
      | archive error => exact iff_of_true malformed (by simp [Clean])
      | typeError => simp [Clean]

/-! ## A manifest without a list of datasets -/

namespace Sample

def plain : Wording := { number := fun _ => "0", date := fun _ => "" }

def tenants : Catalogue where
  exported := [{ model := "Tenant", collectionName := "tenants" }]
  models := List.nodup_singleton _
  collections := List.nodup_singleton _

def zeros (n : ℕ) : String := String.ofList (List.replicate n '0')

/-- An archive of a workspace alone. -/
def manifest (datasets : Js) : Js := .obj
  [("format", .str ARCHIVE_FORMAT), ("formatVersion", .num (.finite 1)), ("exportId", .str "export"),
    ("tenant", .obj [("id", .str (zeros 24))]),
    ("collections", .arr [.obj
      [("file", .str "collections/tenants.jsonl"), ("bytes", .num (.finite 1)),
        ("sha256", .str (zeros 64)), ("model", .str "Tenant"), ("collection", .str "tenants"),
        ("count", .num (.finite 1)), ("contentSha256", .str (zeros 64))]]),
    ("datasets", datasets)]

end Sample

/-- A text in the place of the datasets raises a `TypeError`. -/
theorem text_for_datasets_breaks_off :
    ¬ ∀ wording catalogue manifest, JudgedCleanly wording catalogue manifest := by
  intro always
  have judged := always Sample.plain Sample.tenants (Sample.manifest (.str "none"))
  have thrown : validateManifest Sample.plain Sample.tenants (Sample.manifest (.str "none")) =
      .error .typeError := by
    rfl
  rw [JudgedCleanly, thrown] at judged
  exact judged

end AnalyticsBackend.Archive
